import Shorthand.Proofs.Assembly.Ancestors
import Shorthand.Proofs.Tree.Parents

/-! # Hosts among marked positions

Some positions of a gradual sequence of depths are marked. The host of a position is the nearest marked
one of its ancestors, and its rank the number of those that are marked. A path that is cut back to the
depth of each marked position, and extended by it, gives hosts of its own: main statement, they are the
hosts above exactly when each marked position has marked ancestors only, or is hosted by the last marked
position before it. -/

namespace Shorthand.Nesting

def host (depth : Nat → Nat) (marked : Nat → Bool) (i : Nat) : Option Nat :=
  (ancestors depth i).find? marked

def rank (depth : Nat → Nat) (marked : Nat → Bool) (i : Nat) : Nat :=
  ((ancestors depth i).filter marked).length

def lastMarked (marked : Nat → Bool) : Nat → Option Nat
  | 0 => none
  | i + 1 => if marked i then some i else lastMarked marked i

/-- The length of a path that each marked position cuts back to its depth and then extends. -/
def pathLength (depth : Nat → Nat) (marked : Nat → Bool) : Nat → Nat
  | 0 => 0
  | i + 1 => if marked i then min (depth i) (pathLength depth marked i) + 1
    else pathLength depth marked i

/-- The number of positions left on the path in front of a marked one. -/
def pathRank (depth : Nat → Nat) (marked : Nat → Bool) (i : Nat) : Nat :=
  min (depth i) (pathLength depth marked i)

variable {depth : Nat → Nat} {marked : Nat → Bool}

theorem host_true (depth : Nat → Nat) (i : Nat) : host depth (fun _ => true) i = parent depth i := by
  rw [host, ← head?_ancestors]
  cases ancestors depth i <;> rfl

theorem marked_of_host {h i : Nat} (hh : host depth marked i = some h) : marked h = true :=
  List.find?_some hh

theorem mem_ancestors_of_host {h i : Nat} (hh : host depth marked i = some h) :
    h ∈ ancestors depth i := List.mem_of_find?_eq_some hh

theorem lt_of_mem_ancestors {h i : Nat} (hm : h ∈ ancestors depth i) : h < i := lt_of_mem_chain hm

/-- Each marked ancestor has a smaller rank. -/
theorem rank_lt_of_mem_ancestors {h i : Nat} (hm : h ∈ ancestors depth i) (hh : marked h = true) :
    rank depth marked h < rank depth marked i := by
  obtain ⟨before, hb⟩ := exists_chain_eq_append hm
  change ancestors depth i = _ at hb
  rw [rank, rank, hb, List.filter_append, List.filter_cons_of_pos hh, List.length_append,
    List.length_cons]
  omega

theorem rank_eq_zero_of_host_eq_none {i : Nat} (h : host depth marked i = none) :
    rank depth marked i = 0 := by
  rw [rank, List.length_eq_zero_iff, List.filter_eq_nil_iff]
  exact List.find?_eq_none.1 h

theorem length_filter_chain {h : Nat} : ∀ {d i : Nat}, (chain depth d i).find? marked = some h →
    ((chain depth d i).filter marked).length = rank depth marked h + 1
  | _, 0, hh => nomatch hh
  | d, i + 1, hh => by
    rw [chain] at hh ⊢
    split at hh
    · rename_i hd
      rw [if_pos hd]
      cases hi : marked i with
      | true =>
        rw [List.find?_cons_of_pos hi] at hh
        cases hh
        rw [List.filter_cons_of_pos hi]
        rfl
      | false =>
        rw [List.find?_cons_of_neg (by simp [hi])] at hh
        rw [List.filter_cons_of_neg (by simp [hi]), length_filter_chain hh]
    · rename_i hd
      rw [if_neg hd]
      exact length_filter_chain hh

/-- The host is one rank above. -/
theorem rank_of_host {h i : Nat} (hh : host depth marked i = some h) :
    rank depth marked i = rank depth marked h + 1 := length_filter_chain hh

theorem exists_host_of_rank_pos {i : Nat} (h : 0 < rank depth marked i) :
    ∃ j, host depth marked i = some j := by
  cases hh : host depth marked i with
  | some j => exact ⟨j, rfl⟩
  | none =>
    rw [rank_eq_zero_of_host_eq_none hh] at h
    cases h

theorem lastMarked_spec {l : Nat} : ∀ {i : Nat}, lastMarked marked i = some l →
    l < i ∧ marked l = true ∧ ∀ m, l < m → m < i → marked m = false
  | 0, h => nomatch h
  | i + 1, h => by
    rw [lastMarked] at h
    split at h
    · rename_i hi
      cases h
      exact ⟨Nat.lt_succ_self _, hi, fun m h₁ h₂ => by omega⟩
    · rename_i hi
      obtain ⟨hlt, hl, hbetween⟩ := lastMarked_spec h
      refine ⟨Nat.lt_succ_of_lt hlt, hl, fun m h₁ h₂ => ?_⟩
      rcases Nat.lt_succ_iff_lt_or_eq.1 h₂ with h₂ | rfl
      · exact hbetween m h₁ h₂
      · simpa using hi

theorem lastMarked_eq_none : ∀ {i : Nat}, lastMarked marked i = none → ∀ m < i, marked m = false
  | 0, _, _, hm => nomatch hm
  | i + 1, h, m, hm => by
    rw [lastMarked] at h
    split at h
    · cases h
    · rename_i hi
      rcases Nat.lt_succ_iff_lt_or_eq.1 hm with hm | rfl
      · exact lastMarked_eq_none h m hm
      · simpa using hi

theorem le_lastMarked {h i : Nat} (hlt : h < i) (hh : marked h = true) :
    ∃ l, lastMarked marked i = some l ∧ h ≤ l := by
  cases hl : lastMarked marked i with
  | none =>
    rw [lastMarked_eq_none hl h hlt] at hh
    cases hh
  | some l =>
    refine ⟨l, rfl, Nat.le_of_not_lt fun hlh => ?_⟩
    rw [(lastMarked_spec hl).2.2 h hlh hlt] at hh
    cases hh

theorem lastMarked_eq_some {l i : Nat} (hlt : l < i) (hl : marked l = true)
    (hbetween : ∀ m, l < m → m < i → marked m = false) : lastMarked marked i = some l := by
  obtain ⟨l', hl', hle⟩ := le_lastMarked hlt hl
  obtain ⟨hlt', hmarked, -⟩ := lastMarked_spec hl'
  rcases Nat.lt_or_eq_of_le hle with h | rfl
  · rw [hbetween l' h hlt'] at hmarked
    cases hmarked
  · exact hl'

theorem host_eq_none_of_lastMarked_eq_none (depth : Nat → Nat) {i : Nat} (hl : lastMarked marked i = none) :
    host depth marked i = none := by
  cases hh : host depth marked i with
  | none => rfl
  | some h =>
    obtain ⟨l, hl', -⟩ := le_lastMarked (lt_of_mem_ancestors (mem_ancestors_of_host hh))
      (marked_of_host hh)
    rw [hl] at hl'
    cases hl'

theorem pathLength_of_lastMarked {l : Nat} : ∀ {i : Nat}, lastMarked marked i = some l →
    pathLength depth marked i = pathRank depth marked l + 1
  | 0, h => nomatch h
  | i + 1, h => by
    rw [lastMarked] at h
    rw [pathLength]
    split at h
    · rename_i hi
      cases h
      rw [if_pos hi]
      rfl
    · rename_i hi
      rw [if_neg hi, pathLength_of_lastMarked h]

theorem pathLength_of_lastMarked_eq_none : ∀ {i : Nat}, lastMarked marked i = none →
    pathLength depth marked i = 0
  | 0, _ => rfl
  | i + 1, h => by
    rw [lastMarked] at h
    rw [pathLength]
    split at h
    · cases h
    · rename_i hi
      rw [if_neg hi, pathLength_of_lastMarked_eq_none h]

section Gradual

variable (hn : Gradual depth)
include hn

theorem rank_le_depth (marked : Nat → Bool) (i : Nat) : rank depth marked i ≤ depth i := by
  rw [← length_ancestors hn i]
  exact List.length_filter_le marked _

theorem rank_eq_depth_iff {i : Nat} :
    rank depth marked i = depth i ↔ ∀ j ∈ ancestors depth i, marked j = true := by
  rw [← length_ancestors hn i, rank]
  exact List.length_filter_eq_length_iff

/-- Among marked positions hosts are given by ranks. -/
theorem parentsByDepth_host {numbers : List Nat}
    (hbelow : ∀ j ∈ numbers, ∀ m, m < j → marked m = true → m ∈ numbers) :
    Tree.ParentsByDepth (host depth marked) (rank depth marked) numbers := by
  intro i hi j hj hij hbetween
  constructor
  · intro hh
    rw [rank_of_host hh]
    exact Nat.lt_succ_self _
  · intro hrank
    obtain ⟨h, hh⟩ := exists_host_of_rank_pos (Nat.zero_lt_of_lt hrank)
    have hlt : h < j := lt_of_mem_ancestors (mem_ancestors_of_host hh)
    have hone := rank_of_host hh
    rcases Nat.lt_trichotomy h i with hhi | rfl | hih
    · -- then `i` has the host too, and the rank of `j` at least
      have := rank_lt_of_mem_ancestors
        (mem_ancestors_between hn (mem_ancestors_of_host hh) hhi (Nat.le_of_lt hij))
        (marked_of_host hh)
      omega
    · exact hh
    · have := hbetween h (hbelow j hj h hlt (marked_of_host hh)) hih hlt
      omega

theorem host_eq_of_mem_ancestors {l i : Nat} (hl : lastMarked marked i = some l)
    (hm : l ∈ ancestors depth i) : host depth marked i = some l := by
  obtain ⟨hlt, hmarked, -⟩ := lastMarked_spec hl
  obtain ⟨h, hh⟩ := exists_host_of_rank_pos (Nat.zero_lt_of_lt (rank_lt_of_mem_ancestors hm hmarked))
  obtain ⟨l', hl', hle⟩ := le_lastMarked (lt_of_mem_ancestors (mem_ancestors_of_host hh))
    (marked_of_host hh)
  rw [hl] at hl'
  cases hl'
  rcases Nat.lt_or_eq_of_le hle with hlt' | rfl
  · -- a host above the last marked position would leave no rank for that position
    have h₁ := rank_lt_of_mem_ancestors
      (mem_ancestors_between hn (mem_ancestors_of_host hh) hlt' (Nat.le_of_lt hlt)) (marked_of_host hh)
    have h₂ := rank_lt_of_mem_ancestors hm hmarked
    have h₃ := rank_of_host hh
    omega
  · exact hh

theorem rank_le_of_not_mem_ancestors {l i : Nat} (hl : lastMarked marked i = some l)
    (hm : l ∉ ancestors depth i) : rank depth marked i ≤ rank depth marked l := by
  cases hh : host depth marked i with
  | none =>
    rw [rank_eq_zero_of_host_eq_none hh]
    exact Nat.zero_le _
  | some h =>
    obtain ⟨l', hl', hle⟩ := le_lastMarked (lt_of_mem_ancestors (mem_ancestors_of_host hh))
      (marked_of_host hh)
    rw [hl] at hl'
    cases hl'
    have hlt : h < l := Nat.lt_of_le_of_ne hle fun he => hm (he ▸ mem_ancestors_of_host hh)
    rw [rank_of_host hh]
    exact rank_lt_of_mem_ancestors
      (mem_ancestors_between hn (mem_ancestors_of_host hh) hlt (Nat.le_of_lt (lastMarked_spec hl).1))
      (marked_of_host hh)

/-- From one marked position to the next the rank grows by one at most. -/
theorem rank_le_of_lastMarked {l i : Nat} (hl : lastMarked marked i = some l) :
    rank depth marked i ≤ rank depth marked l + 1 := by
  by_cases hm : l ∈ ancestors depth i
  · exact Nat.le_of_eq (rank_of_host (host_eq_of_mem_ancestors hn hl hm))
  · exact Nat.le_succ_of_le (rank_le_of_not_mem_ancestors hn hl hm)

/-- The ranks of marked positions never step down more than one level. -/
theorem steps_rank {α : Type} : ∀ {nodes : List (α × Nat)}, (nodes.map (·.2)).Pairwise (· < ·) →
    (∀ n ∈ nodes, marked n.2 = true) →
    (∀ i ∈ nodes.map (·.2), ∀ j ∈ nodes.map (·.2), ∀ m, i < m → m < j → marked m = true →
      m ∈ nodes.map (·.2)) →
    Tree.Steps (nodes.map fun n => (rank depth marked n.2, n.1))
  | [], _, _, _ => trivial
  | [_], _, _, _ => trivial
  | x :: y :: nodes, hsorted, hmarked, hclosed => by
    obtain ⟨hlt, hsorted⟩ := List.pairwise_cons.1 hsorted
    obtain ⟨hlt', -⟩ := List.pairwise_cons.1 hsorted
    have hlast : lastMarked marked y.2 = some x.2 := by
      refine lastMarked_eq_some (hlt _ List.mem_cons_self) (hmarked x List.mem_cons_self)
        fun m hxm hmy => Bool.eq_false_iff.2 fun hm => ?_
      have hmem := hclosed x.2 (by simp) y.2 (by simp) m hxm hmy hm
      simp only [List.map_cons, List.mem_cons] at hmem
      rcases hmem with rfl | rfl | hmem
      · exact Nat.lt_irrefl _ hxm
      · exact Nat.lt_irrefl _ hmy
      · exact Nat.lt_asymm hmy (hlt' m hmem)
    refine ⟨rank_le_of_lastMarked hn hlast, steps_rank hsorted
      (fun n hx => hmarked n (List.mem_cons_of_mem _ hx)) fun i hi j hj m him hmj hm => ?_⟩
    rcases List.mem_cons.1 (hclosed i (List.mem_cons_of_mem _ hi) j (List.mem_cons_of_mem _ hj) m him
      hmj hm) with rfl | hmem
    · exact absurd him (Nat.lt_asymm (hlt i hi))
    · exact hmem

/-- When the nodes are the marked positions up to some point, the rows of the forest in which each one
hangs under its host give each one its rank. -/
theorem rowsAll_ofParents_host {α : Type} {nodes : List (α × Nat)}
    (hsorted : (nodes.map (·.2)).Pairwise (· < ·)) (hmarked : ∀ n ∈ nodes, marked n.2 = true)
    (hbelow : ∀ j ∈ nodes.map (·.2), ∀ m, m < j → marked m = true → m ∈ nodes.map (·.2)) :
    Tree.rowsAll 0 (Tree.ofParents (host depth marked) nodes) =
      nodes.map fun n => (rank depth marked n.2, n.1) := by
  rw [Tree.ofParents_eq_ofRows hsorted (parentsByDepth_host hn hbelow)]
  refine Tree.rowsAll_ofRows (steps_rank hn hsorted hmarked fun _ _ j hj m _ => hbelow j hj m) ?_
  cases nodes with
  | nil => exact nofun
  | cons x nodes =>
    intro r hr
    cases hr
    refine rank_eq_zero_of_host_eq_none (host_eq_none_of_lastMarked_eq_none depth ?_)
    cases hl : lastMarked marked x.2 with
    | none => rfl
    | some l =>
      obtain ⟨hlt, hm, -⟩ := lastMarked_spec hl
      rcases List.mem_cons.1 (hbelow x.2 (by simp) l hlt hm) with rfl | hmem
      · exact absurd hlt (Nat.lt_irrefl _)
      · exact absurd hlt (Nat.lt_asymm ((List.pairwise_cons.1 hsorted).1 l hmem))

/-- The path never leads above the host. -/
theorem rank_le_pathRank (i : Nat) : rank depth marked i ≤ pathRank depth marked i := by
  induction i using Nat.strongRecOn with
  | _ i ih =>
    cases hl : lastMarked marked i with
    | none =>
      rw [rank_eq_zero_of_host_eq_none (host_eq_none_of_lastMarked_eq_none depth hl)]
      exact Nat.zero_le _
    | some l =>
      have hlast := ih l (lastMarked_spec hl).1
      have hstep := rank_le_of_lastMarked hn hl
      have hdepth := rank_le_depth hn marked i
      rw [pathRank, pathLength_of_lastMarked hl]
      omega

/-- Where the path has led each earlier marked position to its host, it leads the next one there exactly
when all of its ancestors are marked or its host is the last marked position before it. -/
theorem pathRank_eq_rank_iff {i : Nat}
    (hprev : ∀ j < i, marked j = true → pathRank depth marked j = rank depth marked j) :
    pathRank depth marked i = rank depth marked i ↔
      (∀ j ∈ ancestors depth i, marked j = true) ∨ host depth marked i = lastMarked marked i := by
  cases hl : lastMarked marked i with
  | none =>
    have hnone := host_eq_none_of_lastMarked_eq_none depth hl
    rw [pathRank, pathLength_of_lastMarked_eq_none hl, rank_eq_zero_of_host_eq_none hnone]
    simp [hnone]
  | some l =>
    obtain ⟨hlt, hmarked, -⟩ := lastMarked_spec hl
    rw [pathRank, pathLength_of_lastMarked hl, hprev l hlt hmarked]
    by_cases hm : l ∈ ancestors depth i
    · have hh := host_eq_of_mem_ancestors hn hl hm
      have hrank := rank_of_host hh
      have hle := rank_le_depth hn marked i
      exact ⟨fun _ => .inr hh, fun _ => by omega⟩
    · -- the path has to be cut back, and only the depth of `i` can do so
      have hne : host depth marked i ≠ some l := fun hh => hm (mem_ancestors_of_host hh)
      have hle := rank_le_of_not_mem_ancestors hn hl hm
      rw [← rank_eq_depth_iff hn]
      constructor
      · exact fun h => .inl (by omega)
      · rintro (h | h)
        · omega
        · exact absurd h hne

/-- **A path cut back to depths finds all hosts exactly when** each marked position has marked ancestors
only or is hosted by the last marked position before it. -/
theorem forall_pathRank_eq_rank_iff (n : Nat) :
    (∀ i < n, marked i = true → pathRank depth marked i = rank depth marked i) ↔
      ∀ i < n, marked i = true →
        (∀ j ∈ ancestors depth i, marked j = true) ∨ host depth marked i = lastMarked marked i := by
  constructor
  · intro h i hi hm
    exact (pathRank_eq_rank_iff hn fun j hj => h j (Nat.lt_trans hj hi)).1 (h i hi hm)
  · intro h i
    induction i using Nat.strongRecOn with
    | _ i ih =>
      intro hi hm
      exact (pathRank_eq_rank_iff hn fun j hj => ih j hj (Nat.lt_trans hj hi)).2 (h i hi hm)

end Gradual

end Shorthand.Nesting
