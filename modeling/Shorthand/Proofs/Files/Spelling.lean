import Shorthand.Files.Tree
import Shorthand.Proofs.Files.Path
import Shorthand.Proofs.Text.Characters

/-! # Spellings of a path

Two spellings of a path take the same steps but for the steps in place, and these lead nowhere else. Only the
length of a spelling and a step in place behind a file make a difference to what it leads to. Main statement:
`read_congr`. -/

namespace Shorthand.Files

namespace Path

/-! ## Steps that two spellings share -/

def route (path : Path) : List Step := (steps path).filter (· != .here)

def stepOfKey? : Text → Option Step
  | '\x02' :: _ => some .up
  | '\x03' :: name => some (.down name)
  | _ => none

theorem filterMap_componentKeys (path : Path) :
    (componentKeys path).filterMap stepOfKey? = route path := by
  have hstart : ∀ start rest : List Text, (∀ key ∈ start, stepOfKey? key = none) →
      (start ++ rest).filterMap stepOfKey? = rest.filterMap stepOfKey? := by
    intro start rest h
    rw [List.filterMap_append, List.filterMap_eq_nil_iff.2 h, List.nil_append]
  rw [componentKeys, route, hstart]
  · induction steps path with
    | nil => rfl
    | cons step rest ih =>
      cases step with
      | here => exact ih
      | up => exact congrArg (.up :: ·) ih
      | down name => exact congrArg (.down name :: ·) ih
  · split
    · exact List.forall_mem_singleton.2 rfl
    · split
      · exact List.forall_mem_singleton.2 rfl
      · exact nofun

theorem isAbsolute_iff {path : Path} :
    isAbsolute path = true ↔ (componentKeys path).head? = some ['\x00'] := by
  rw [componentKeys]
  constructor
  · intro h
    rw [if_pos h]
    rfl
  · intro h
    by_cases habsolute : isAbsolute path = true
    · exact habsolute
    · rw [if_neg habsolute] at h
      split at h
      · cases h
      · rw [List.nil_append] at h
        obtain ⟨step, -, hkey⟩ := List.mem_filterMap.1 (List.mem_of_head? h)
        cases step <;> cases hkey

theorem route_eq_of_same {p q : Path} (h : same p q = true) : route p = route q := by
  rw [← filterMap_componentKeys, same_iff.1 h, filterMap_componentKeys]

theorem isAbsolute_eq_of_same {p q : Path} (h : same p q = true) : isAbsolute p = isAbsolute q := by
  rw [Bool.eq_iff_iff, isAbsolute_iff, isAbsolute_iff, same_iff.1 h]

/-! ## Faults that two spellings share -/

theorem eq_of_step_eq_down {part name : Text} (h : step part = .down name) : part = name := by
  unfold step at h
  split at h
  · cases h
  · split at h
    · cases h
    · cases h
      rfl

theorem nul_mem_iff {path : Path} :
    '\x00' ∈ path ↔ ∃ name, .down name ∈ route path ∧ '\x00' ∈ name := by
  constructor
  · intro h
    obtain ⟨part, hpart, hmem⟩ := Text.exists_mem_splitOn (by decide : '\x00' ≠ '/') h
    have hstep : step part = .down part := by
      rw [step, if_neg, if_neg]
      · intro hup
        rw [hup] at hmem
        exact absurd hmem (by decide)
      · rintro (hnil | hdot)
        · rw [hnil] at hmem
          cases hmem
        · rw [hdot] at hmem
          exact absurd hmem (by decide)
    refine ⟨part, List.mem_filter.2 ⟨List.mem_map.2 ⟨part, hpart, hstep⟩, rfl⟩, hmem⟩
  · rintro ⟨name, hname, hmem⟩
    obtain ⟨part, hpart, hstep⟩ := List.mem_map.1 (List.mem_filter.1 hname).1
    exact Text.mem_of_mem_splitOn hpart (eq_of_step_eq_down hstep ▸ hmem)

theorem fault?_eq_none_iff {path : Path} :
    fault? path = none ↔ '\x00' ∉ path ∧ path.byteLength ≤ maxPathLength := by
  unfold fault?
  split
  · rename_i hnul
    exact ⟨nofun, fun h => absurd hnul h.1⟩
  · rename_i hnul
    split
    · rename_i hlong
      exact ⟨nofun, fun h => absurd hlong (Nat.not_lt.2 h.2)⟩
    · rename_i hshort
      exact iff_of_true rfl ⟨hnul, Nat.not_lt.1 hshort⟩

theorem fault?_of_append {front rest : Path} (h : fault? (front ++ rest) = none) :
    fault? front = none := by
  rw [fault?_eq_none_iff, Text.byteLength_append] at h
  exact fault?_eq_none_iff.2
    ⟨fun hnul => h.1 (List.mem_append_left rest hnul), Nat.le_of_add_right_le h.2⟩

/-- Spellings that are both short enough or both too long have the same fault. -/
theorem fault?_congr {p q : Path} (h : same p q = true)
    (hlength : p.byteLength ≤ maxPathLength ↔ q.byteLength ≤ maxPathLength) :
    fault? p = fault? q := by
  have hnul : '\x00' ∈ p ↔ '\x00' ∈ q := by
    rw [nul_mem_iff, nul_mem_iff, route_eq_of_same h]
  have hlong : maxPathLength < p.byteLength ↔ maxPathLength < q.byteLength := by
    rw [← Nat.not_le, ← Nat.not_le, hlength]
  simp only [fault?, hnul, hlong]

end Path

namespace Tree

/-! ## Steps in place -/

theorem isDirectoryAt_of_walk? {t : Tree} {location next : Location} {step : Step}
    (h : t.walk? location step = some next) : t.isDirectoryAt location = true := by
  unfold walk? at h
  split at h
  · assumption
  · cases h

theorem walk?_here {t : Tree} {location : Location} (h : t.isDirectoryAt location = true) :
    t.walk? location .here = some location := if_pos h

theorem eq_of_walk?_here {t : Tree} {location next : Location}
    (h : t.walk? location .here = some next) : next = location := by
  unfold walk? at h
  split at h
  · exact (Option.some.inj h).symm
  · cases h

/-- Steps that lead somewhere lead there without the steps in place. -/
theorem foldlM_route {t : Tree} {last : Location} : ∀ {steps : List Step} {location : Location},
    steps.foldlM t.walk? location = some last →
      (steps.filter (· != .here)).foldlM t.walk? location = some last
  | [], _, h => h
  | step :: steps, location, h => by
    rw [List.foldlM_cons] at h
    obtain ⟨next, hnext, hrest⟩ := Option.bind_eq_some_iff.1 h
    by_cases hhere : step = .here
    · subst hhere
      rw [eq_of_walk?_here hnext] at hrest
      change (steps.filter (· != .here)).foldlM t.walk? location = some last
      exact foldlM_route hrest
    · rw [List.filter_cons_of_pos (by simpa using hhere), List.foldlM_cons, hnext]
      exact foldlM_route hrest

/-- Steps in place can be taken along, but the last step only where they have led to a directory. -/
theorem foldlM_of_route {t : Tree} {last : Location} : ∀ {steps : List Step} {location : Location},
    (steps.filter (· != .here)).foldlM t.walk? location = some last →
      (steps.getLast? = some .here → t.isDirectoryAt last = true) →
        steps.foldlM t.walk? location = some last
  | [], _, h, _ => h
  | step :: steps, location, h, hend => by
    have hend' : steps.getLast? = some .here → t.isDirectoryAt last = true := by
      intro hlast
      refine hend ?_
      rw [List.getLast?_cons, hlast]
      rfl
    by_cases hhere : step = .here
    · subst hhere
      have hdirectory : t.isDirectoryAt location = true := by
        change (steps.filter (· != .here)).foldlM t.walk? location = some last at h
        cases hroute : steps.filter (· != .here) with
        | nil =>
          -- nothing but steps in place
          rw [hroute] at h
          obtain rfl : location = last := Option.some.inj h
          refine hend ?_
          cases hlast : steps.getLast? with
          | none => rw [List.getLast?_cons, hlast]; rfl
          | some step =>
            have hmem := List.mem_of_getLast? hlast
            have hstep := List.filter_eq_nil_iff.1 hroute step hmem
            rw [List.getLast?_cons, hlast]
            simpa using hstep
        | cons first rest =>
          rw [hroute, List.foldlM_cons] at h
          obtain ⟨next, hnext, -⟩ := Option.bind_eq_some_iff.1 h
          exact isDirectoryAt_of_walk? hnext
      rw [List.foldlM_cons, walk?_here hdirectory]
      exact foldlM_of_route h hend'
    · rw [List.filter_cons_of_pos (by simpa using hhere), List.foldlM_cons] at h
      obtain ⟨next, hnext, hrest⟩ := Option.bind_eq_some_iff.1 h
      rw [List.foldlM_cons, hnext]
      exact foldlM_of_route hrest hend'

/-! ## What spellings lead to -/

/-- A path that ends with a step in place leads to a directory, unless it is at fault itself. -/
structure Settled (t : Tree) (path : Path) : Prop where
  ne_nil : path ≠ []
  directory : (Path.steps path).getLast? = some .here → Path.fault? path = none →
    t.isDirectory path = true

theorem locate?_eq_some_iff {t : Tree} {path : Path} {location : Location} :
    t.locate? path = some location ↔ path ≠ [] ∧ Path.fault? path = none ∧
      (Path.steps path).foldlM t.walk? (t.start path) = some location := by
  rw [locate?]
  split
  · rename_i hfault
    refine ⟨nofun, fun ⟨hne, hnone, _⟩ => ?_⟩
    rw [hnone, Option.isSome_none, Bool.or_false, List.isEmpty_iff] at hfault
    exact absurd hfault hne
  · rename_i hplain
    rw [Bool.or_eq_true_iff, not_or, List.isEmpty_iff, Bool.not_eq_true, Option.isSome_eq_false_iff,
      Option.isNone_iff_eq_none] at hplain
    exact ⟨fun h => ⟨hplain.1, hplain.2, h⟩, fun h => h.2.2⟩

theorem isDirectory_iff {t : Tree} {path : Path} : t.isDirectory path = true ↔
    ∃ location, t.locate? path = some location ∧ t.isDirectoryAt location = true := by
  rw [isDirectory, at?]
  cases t.locate? path with
  | none => exact ⟨nofun, fun ⟨_, h, _⟩ => nomatch h⟩
  | some location =>
    exact ⟨fun h => ⟨location, rfl, h⟩, fun ⟨_, h, hdirectory⟩ => Option.some.inj h ▸ hdirectory⟩

theorem locate?_of_same {t : Tree} {p q : Path} (h : Path.same p q = true)
    (hfault : Path.fault? p = Path.fault? q) (hq : t.Settled q) {location : Location}
    (hp : t.locate? p = some location) : t.locate? q = some location := by
  obtain ⟨-, hnone, hwalk⟩ := locate?_eq_some_iff.1 hp
  have hroute := foldlM_route hwalk
  have hstart : t.start p = t.start q := by rw [start, start, Path.isAbsolute_eq_of_same h]
  change (Path.route p).foldlM t.walk? (t.start p) = some location at hroute
  rw [Path.route_eq_of_same h, hstart] at hroute
  rw [hfault] at hnone
  refine locate?_eq_some_iff.2 ⟨hq.ne_nil, hnone, foldlM_of_route hroute fun hlast => ?_⟩
  obtain ⟨directory, hlocate, hdirectory⟩ := isDirectory_iff.1 (hq.directory hlast hnone)
  -- the directory is where the steps lead without those in place
  have hown := foldlM_route (locate?_eq_some_iff.1 hlocate).2.2
  rw [← Option.some.inj (hown.symm.trans hroute)]
  exact hdirectory

/-- Two spellings of a path with the same fault read alike. -/
theorem read_congr {t : Tree} {p q : Path} (h : Path.same p q = true)
    (hfault : Path.fault? p = Path.fault? q) (hp : t.Settled p) (hq : t.Settled q) :
    t.read p = t.read q := by
  have hback : Path.same q p = true := Path.same_iff.2 (Path.same_iff.1 h).symm
  have hlocate : t.locate? p = t.locate? q := by
    refine Option.ext fun location => ⟨fun hl => ?_, fun hl => ?_⟩
    · exact locate?_of_same h hfault hq hl
    · exact locate?_of_same hback hfault.symm hp hl
  rw [read, read, at?, at?, hlocate, hfault]

end Tree
end Shorthand.Files
