import Shorthand.Group

/-! # The closer that matches

A group ends at the first closer in front of which, behind the opener of the group, there are as many openers
as closers. Main statements: up to there no closer is without its opener (`closes_of_close?`), and there is
no such place in a text whose closers all have theirs (`covered_of_close?`). -/

namespace Shorthand.Group

variable {opener closer : Char}

/-- There are as many openers as closers. -/
def Balanced (opener closer : Char) (text : Text) : Prop := text.count opener = text.count closer

/-- Wherever the text is cut, there are no more closers in front than openers and groups that were open
before. -/
def Covered (opener closer : Char) (depth : Nat) (text : Text) : Prop :=
  ∀ front, front <+: text → front.count closer ≤ front.count opener + depth

theorem covered_nil (depth : Nat) : Covered opener closer depth [] := by
  intro front hfront
  rw [List.prefix_nil.1 hfront]
  exact Nat.zero_le _

/-- The number of open groups keeps account of openers and closers. -/
theorem count_add_depthAfter (hne : opener ≠ closer) {c : Char} {depth : Nat}
    (hc : ¬(c = closer ∧ c ≠ opener ∧ depth = 0)) (text : Text) :
    text.count opener + depthAfter opener closer c depth + (c :: text).count closer =
      (c :: text).count opener + depth + text.count closer := by
  unfold depthAfter
  split
  · rename_i ho
    subst ho
    rw [List.count_cons_self, List.count_cons_of_ne hne]
    omega
  · rename_i ho
    rw [List.count_cons_of_ne ho]
    split
    · rename_i hcl
      subst hcl
      have hpos : depth ≠ 0 := fun h => hc ⟨rfl, ho, h⟩
      rw [List.count_cons_self]
      omega
    · rename_i hcl
      rw [List.count_cons_of_ne hcl]

theorem Covered.cons (hne : opener ≠ closer) {c : Char} {depth : Nat} {text : Text}
    (hc : ¬(c = closer ∧ c ≠ opener ∧ depth = 0))
    (h : Covered opener closer (depthAfter opener closer c depth) text) :
    Covered opener closer depth (c :: text) := by
  intro front hfront
  rcases List.prefix_cons_iff.1 hfront with rfl | ⟨rest, rfl, hrest⟩
  · exact Nat.zero_le _
  · have hcount := count_add_depthAfter hne hc rest
    have := h rest hrest
    omega

/-- What stands before the closer of a group closes the groups that were open before, and no more. -/
theorem closes_of_close? (hne : opener ≠ closer) {depth : Nat} {text inner after : Text}
    (h : close? opener closer depth text = some (inner, after)) :
    Covered opener closer depth inner ∧ inner.count closer = inner.count opener + depth := by
  induction text generalizing depth inner with
  | nil => cases h
  | cons c text ih =>
    rw [close?] at h
    split at h
    · rename_i hc
      cases h
      exact ⟨covered_nil depth, by rw [hc.2.2]; rfl⟩
    · rename_i hc
      obtain ⟨⟨rest, after'⟩, hrest, he⟩ := Option.map_eq_some_iff.1 h
      cases he
      obtain ⟨hcovered, hcount⟩ := ih hrest
      have hstep := count_add_depthAfter hne hc rest
      exact ⟨hcovered.cons hne hc, by omega⟩

/-- A text without the closer of the group has an opener for each closer. -/
theorem covered_of_close? (hne : opener ≠ closer) {depth : Nat} {text : Text}
    (h : close? opener closer depth text = none) : Covered opener closer depth text := by
  induction text generalizing depth with
  | nil => exact covered_nil depth
  | cons c text ih =>
    rw [close?] at h
    split at h
    · cases h
    · rename_i hc
      exact (ih (Option.map_eq_none_iff.1 h)).cons hne hc

/-! ## Behind the opener -/

/-- While each closer has its opener, that of the group has no closer. -/
theorem Covered.not_balanced (hne : opener ≠ closer) {text : Text} (h : Covered opener closer 0 text)
    {front : Text} (hfront : front <+: opener :: text) (hfull : front ≠ []) :
    ¬Balanced opener closer front := by
  rcases List.prefix_cons_iff.1 hfront with rfl | ⟨rest, rfl, hrest⟩
  · exact absurd rfl hfull
  · have := h rest hrest
    rw [Balanced, List.count_cons_self, List.count_cons_of_ne hne]
    omega

/-- A group that is closed is the shortest balanced text that stands there. -/
theorem shortest_of_close? (hne : opener ≠ closer) {text inner after : Text}
    (h : close? opener closer 0 text = some (inner, after)) :
    Balanced opener closer (opener :: inner ++ [closer]) ∧
    ∀ front, front <+: opener :: text → front ≠ [] → Balanced opener closer front →
      (opener :: inner ++ [closer]).length ≤ front.length := by
  obtain ⟨hcovered, hcount⟩ := closes_of_close? hne h
  constructor
  · have hlone : [closer].count opener = 0 := List.count_eq_zero_of_not_mem (by simpa using hne)
    rw [Balanced, List.cons_append, List.count_cons_self, List.count_cons_of_ne hne, List.count_append,
      List.count_append, List.count_singleton_self, hlone]
    omega
  · intro front hfront hfull hbalanced
    refine Nat.le_of_not_lt fun hshort => ?_
    have hgroup : opener :: inner <+: opener :: text := by
      rw [append_of_close? h]
      exact List.prefix_append (opener :: inner) _
    have hlength : front.length ≤ (opener :: inner).length := by
      rw [List.length_append, List.length_singleton] at hshort
      exact Nat.le_of_lt_succ hshort
    have hinside := List.prefix_of_prefix_length_le hfront hgroup hlength
    exact hcovered.not_balanced hne hinside hfull hbalanced

end Shorthand.Group
