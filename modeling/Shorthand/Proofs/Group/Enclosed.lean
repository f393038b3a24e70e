import Mathlib.Data.List.Induction
import Shorthand.Proofs.Group.Nesting

/-! # What is inside of groups

A place in a nested text is inside a group exactly when a closer is still to come there: the innermost closer
to come has its opener in front, and stands behind with nothing but nested text on the way
(`enclosed_iff`). -/

namespace Shorthand.Group

/-- Between the two texts a group is open: it has its opener in the first and its closer in the second. -/
def Enclosed (u v : Text) : Prop :=
  ∃ group ∈ Delimiter.groups, ∃ before inner inner' after,
    u = before ++ group.1 :: inner ∧ v = inner' ++ group.2 :: after ∧ Nested (inner ++ inner')

/-- Closers to come after those of a text do not matter to it. -/
theorem pendingAfter_append_of_some {text : Text} {pending rest : List Char}
    (h : pendingAfter pending text = some rest) (later : List Char) :
    pendingAfter (pending ++ later) text = some (rest ++ later) := by
  induction text generalizing pending with
  | nil =>
    cases h
    rfl
  | cons c text ih =>
    rw [pendingAfter_cons] at h
    obtain ⟨next, hstep, htext⟩ := Option.bind_eq_some_iff.1 h
    have hlater : pendingStep (pending ++ later) c = some (next ++ later) := by
      rcases pendingStep_cases hstep with ⟨closer, hg, rfl⟩ | ⟨opener, hg, rfl⟩ | ⟨hc, rfl⟩
      · exact pendingStep_opener hg _
      · exact pendingStep_closer hg _
      · exact pendingStep_of_isPlain hc _
    rw [pendingAfter_cons, hlater]
    exact ih htext

/-- A closer to come has its opener in the text. Those of the groups opened behind it come before it. -/
theorem exists_opener_of_pendingAfter {u : Text} {inside rest : List Char} {closer : Char}
    (h : pendingAfter [] u = some (inside ++ closer :: rest)) :
    ∃ opener before inner, (opener, closer) ∈ Delimiter.groups ∧ u = before ++ opener :: inner ∧
      pendingAfter [] inner = some inside := by
  induction u using List.reverseRecOn generalizing inside with
  | nil => simp at h
  | append_singleton u c ih =>
    rw [pendingAfter_append] at h
    obtain ⟨pending, hu, hstep⟩ := Option.bind_eq_some_iff.1 h
    rw [pendingAfter_cons, Option.bind_eq_some_iff] at hstep
    obtain ⟨next, hstep, ⟨⟩⟩ := hstep
    have hmore : ∀ {inside'}, pending = inside' ++ closer :: rest → pendingStep inside' c = some inside →
        ∃ opener before inner, (opener, closer) ∈ Delimiter.groups ∧
          u ++ [c] = before ++ opener :: inner ∧ pendingAfter [] inner = some inside := by
      rintro inside' rfl hc
      obtain ⟨opener, before, inner, hg, rfl, hinner⟩ := ih hu
      refine ⟨opener, before, inner ++ [c], hg, List.append_assoc .., ?_⟩
      rw [pendingAfter_append, hinner, Option.bind_some, pendingAfter_cons, hc]
      rfl
    rcases pendingStep_cases hstep with ⟨closer', hg, hnext⟩ | ⟨opener, hg, rfl⟩ | ⟨hc, rfl⟩
    · cases inside with
      | nil =>
        obtain ⟨rfl, rfl⟩ := List.cons.inj hnext
        exact ⟨c, u, [], hg, rfl, rfl⟩
      | cons k inside =>
        obtain ⟨rfl, rfl⟩ := List.cons.inj hnext
        exact hmore rfl (pendingStep_opener hg inside)
    · exact hmore rfl (pendingStep_closer hg inside)
    · exact hmore rfl (pendingStep_of_isPlain hc inside)

/-- A closer to come is in the text that has none to come at its end. -/
theorem exists_closer_of_pendingAfter {v : Text} {inside rest : List Char} {closer : Char}
    (h : pendingAfter (inside ++ closer :: rest) v = some []) :
    ∃ inner after, v = inner ++ closer :: after ∧ pendingAfter inside inner = some [] := by
  induction v generalizing inside with
  | nil => simp at h
  | cons c v ih =>
    rw [pendingAfter_cons] at h
    obtain ⟨next, hstep, hv⟩ := Option.bind_eq_some_iff.1 h
    have hmore : ∀ {inside'}, next = inside' ++ closer :: rest → pendingStep inside c = some inside' →
        ∃ inner after, c :: v = inner ++ closer :: after ∧ pendingAfter inside inner = some [] := by
      rintro inside' rfl hc
      obtain ⟨inner, after, rfl, hinner⟩ := ih hv
      exact ⟨c :: inner, after, rfl, by rw [pendingAfter_cons, hc]; exact hinner⟩
    rcases pendingStep_cases hstep with ⟨closer', hg, rfl⟩ | ⟨opener, hg, hpending⟩ | ⟨hc, rfl⟩
    · exact hmore rfl (pendingStep_opener hg inside)
    · cases inside with
      | nil =>
        obtain ⟨rfl, -⟩ := List.cons.inj hpending
        exact ⟨[], v, rfl, rfl⟩
      | cons k inside =>
        obtain ⟨rfl, rfl⟩ := List.cons.inj hpending
        exact hmore rfl (pendingStep_closer hg inside)
    · exact hmore rfl (pendingStep_of_isPlain hc inside)

/-- **A place is inside a group** exactly when a closer is to come there. -/
theorem enclosed_iff {u v : Text} (h : Nested (u ++ v)) : Enclosed u v ↔ pendingAfter [] u ≠ some [] := by
  rw [Nested, pendingAfter_append] at h
  obtain ⟨pending, hu, hv⟩ := Option.bind_eq_some_iff.1 h
  rw [hu]
  constructor
  · rintro ⟨⟨opener, closer⟩, hg, before, inner, inner', after, rfl, -, hinner⟩ hnil
    rw [pendingAfter_append] at hu
    obtain ⟨outer, -, hu⟩ := Option.bind_eq_some_iff.1 hu
    rw [pendingAfter_cons, pendingStep_opener hg, Option.bind_some] at hu
    rw [Nested, pendingAfter_append] at hinner
    obtain ⟨inside, hinner, -⟩ := Option.bind_eq_some_iff.1 hinner
    have hclosers := (pendingAfter_append_of_some hinner (closer :: outer)).symm.trans (hu.trans hnil)
    exact absurd (Option.some.inj hclosers) (List.append_ne_nil_of_right_ne_nil inside (List.cons_ne_nil _ _))
  · intro hne
    cases pending with
    | nil => exact absurd rfl hne
    | cons closer rest =>
      obtain ⟨opener, before, inner, hg, rfl, hinner⟩ := @exists_opener_of_pendingAfter _ [] _ _ hu
      obtain ⟨inner', after, rfl, hinner'⟩ := @exists_closer_of_pendingAfter _ [] _ _ hv
      have hnested : Nested inner := hinner
      exact ⟨_, hg, before, inner, inner', after, rfl, rfl, hnested.append hinner'⟩

end Shorthand.Group
