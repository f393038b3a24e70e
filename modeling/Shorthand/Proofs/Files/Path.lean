import Shorthand.Files.Path

/-! # Paths in order

Sorting puts paths in strictly increasing order of their components. It adds no path, and of each path it
keeps a spelling. -/

namespace Shorthand.Files.Path

theorem le_iff {p q : Path} : le p q = true ↔ ¬componentKeys q < componentKeys p := by
  rw [le, Bool.not_eq_true', decide_eq_false_iff_not]

theorem same_iff {p q : Path} : same p q = true ↔ componentKeys p = componentKeys q := beq_iff_eq

theorem pairwise_mergeSort_le (paths : List Path) :
    (paths.mergeSort le).Pairwise fun p q => ¬componentKeys q < componentKeys p := by
  have htrans : ∀ p q r : Path, le p q = true → le q r = true → le p r = true := by
    intro p q r hpq hqr
    rw [le_iff] at hpq hqr ⊢
    exact List.not_lt.2 (List.le_trans (List.not_lt.1 hpq) (List.not_lt.1 hqr))
  have htotal : ∀ p q : Path, (le p q || le q p) = true := by
    intro p q
    rw [Bool.or_eq_true_iff, le_iff, le_iff]
    exact (List.le_total (componentKeys p) (componentKeys q)).imp List.not_lt.2 List.not_lt.2
  exact (List.pairwise_mergeSort htrans htotal paths).imp le_iff.1

theorem mem_of_mem_dropRepeats {r : Path} {paths : List Path} (h : r ∈ dropRepeats paths) :
    r ∈ paths := by
  induction paths using dropRepeats.induct with
  | case1 => rwa [dropRepeats] at h
  | case2 p => rwa [dropRepeats] at h
  | case3 p q paths hsame ih =>
    rw [dropRepeats, if_pos hsame] at h
    rcases List.mem_cons.1 (ih h) with rfl | h
    · exact List.mem_cons_self
    · exact List.mem_cons_of_mem p (List.mem_cons_of_mem q h)
  | case4 p q paths hsame ih =>
    rw [dropRepeats, if_neg hsame] at h
    rcases List.mem_cons.1 h with rfl | h
    · exact List.mem_cons_self
    · exact List.mem_cons_of_mem p (ih h)

theorem exists_same_of_mem {r : Path} {paths : List Path} (h : r ∈ paths) :
    ∃ p ∈ dropRepeats paths, same r p = true := by
  induction paths using dropRepeats.induct generalizing r with
  | case1 => cases h
  | case2 p =>
    rw [dropRepeats]
    exact ⟨r, h, same_iff.2 rfl⟩
  | case3 p q paths hsame ih =>
    rw [dropRepeats, if_pos hsame]
    -- `q` is dropped, and `p` is another spelling of it
    by_cases hrq : r = q
    · subst hrq
      obtain ⟨s, hs, hps⟩ := ih List.mem_cons_self
      exact ⟨s, hs, same_iff.2 ((same_iff.1 hsame).symm.trans (same_iff.1 hps))⟩
    · refine ih ?_
      rcases List.mem_cons.1 h with rfl | h
      · exact List.mem_cons_self
      · exact List.mem_cons_of_mem p (List.mem_of_ne_of_mem hrq h)
  | case4 p q paths hsame ih =>
    rw [dropRepeats, if_neg hsame]
    rcases List.mem_cons.1 h with rfl | h
    · exact ⟨r, List.mem_cons_self, same_iff.2 rfl⟩
    · obtain ⟨s, hs, hrs⟩ := ih h
      exact ⟨s, List.mem_cons_of_mem p hs, hrs⟩

theorem pairwise_dropRepeats {paths : List Path}
    (h : paths.Pairwise fun p q => ¬componentKeys q < componentKeys p) :
    (dropRepeats paths).Pairwise fun p q => componentKeys p < componentKeys q := by
  induction paths using dropRepeats.induct with
  | case1 =>
    rw [dropRepeats]
    exact .nil
  | case2 p =>
    rw [dropRepeats]
    exact List.pairwise_singleton _ p
  | case3 p q paths hsame ih =>
    rw [dropRepeats, if_pos hsame]
    exact ih (h.sublist ((List.sublist_cons_self q paths).cons_cons p))
  | case4 p q paths hsame ih =>
    rw [dropRepeats, if_neg hsame]
    obtain ⟨hp, hrest⟩ := List.pairwise_cons.1 h
    refine List.pairwise_cons.2 ⟨fun r hr => ?_, ih hrest⟩
    have hpq := hp q List.mem_cons_self
    have hqr : ¬componentKeys r < componentKeys q := by
      rcases List.mem_cons.1 (mem_of_mem_dropRepeats hr) with rfl | hr
      · exact List.lt_irrefl _
      · exact (List.pairwise_cons.1 hrest).1 r hr
    have hlt : componentKeys p < componentKeys q :=
      List.not_le.1 fun hqp => hsame (same_iff.2 (List.le_antisymm (List.not_lt.1 hpq) hqp))
    exact Decidable.byContradiction fun hpr => hqr (List.lt_of_le_of_lt (List.not_lt.1 hpr) hlt)

theorem pairwise_sorted (paths : List Path) :
    (sorted paths).Pairwise fun p q => componentKeys p < componentKeys q :=
  pairwise_dropRepeats (pairwise_mergeSort_le paths)

theorem mem_of_mem_sorted {p : Path} {paths : List Path} (h : p ∈ sorted paths) : p ∈ paths :=
  List.mem_mergeSort.1 (mem_of_mem_dropRepeats h)

theorem exists_same_sorted {p : Path} {paths : List Path} (h : p ∈ paths) :
    ∃ q ∈ sorted paths, same p q = true :=
  exists_same_of_mem (List.mem_mergeSort.2 h)

theorem mem_componentKeys_sorted {paths : List Path} {key : List Text} :
    key ∈ (sorted paths).map componentKeys ↔ ∃ p ∈ paths, componentKeys p = key := by
  constructor
  · intro h
    obtain ⟨p, hp, rfl⟩ := List.mem_map.1 h
    exact ⟨p, mem_of_mem_sorted hp, rfl⟩
  · rintro ⟨p, hp, rfl⟩
    obtain ⟨q, hq, hsame⟩ := exists_same_sorted hp
    exact List.mem_map.2 ⟨q, hq, (same_iff.1 hsame).symm⟩

/-- The same paths, in any order and as often as may be, are the same in order but for their spellings. -/
theorem componentKeys_sorted_congr {ps qs : List Path} (h : ∀ p, p ∈ ps ↔ p ∈ qs) :
    (sorted ps).map componentKeys = (sorted qs).map componentKeys := by
  have hstrict : ∀ paths : List Path, ((sorted paths).map componentKeys).Pairwise (· < ·) :=
    fun paths => List.pairwise_map.2 (pairwise_sorted paths)
  have hnodup : ∀ paths : List Path, ((sorted paths).map componentKeys).Nodup := by
    refine fun paths => (hstrict paths).imp fun hlt heq => ?_
    rw [heq] at hlt
    exact List.lt_irrefl _ hlt
  have hmem : ∀ key, key ∈ (sorted ps).map componentKeys ↔ key ∈ (sorted qs).map componentKeys := by
    intro key
    simp only [mem_componentKeys_sorted, h]
  have hperm := (List.perm_ext_iff_of_nodup (hnodup ps) (hnodup qs)).2 hmem
  exact hperm.eq_of_pairwise (fun _ _ _ _ hlt hgt => absurd hgt (List.lt_asymm hlt))
    (hstrict ps) (hstrict qs)

/-- Of two spellings the first one is kept. -/
theorem sorted_pair {p q : Path} (h : same p q = true) : sorted [p, q] = [p] := by
  have hle : le p q = true := le_iff.2 (same_iff.1 h ▸ List.lt_irrefl _)
  have hpair : [p, q].Pairwise fun p q => le p q = true :=
    List.pairwise_cons.2 ⟨List.forall_mem_singleton.2 hle, List.pairwise_singleton _ q⟩
  rw [sorted, List.mergeSort_of_pairwise hpair, dropRepeats, if_pos h, dropRepeats]

end Shorthand.Files.Path
