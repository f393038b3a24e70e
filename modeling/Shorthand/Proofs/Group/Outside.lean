import Shorthand.Proofs.Group.Nesting

/-! # What is outside of groups

A text is left with its characters outside every group when each of its groups is contracted to the opener.
What is left is put together from what is left of the parts of the text (`outside_append`), and a character
is left where it stands behind a nested text. -/

namespace Shorthand.Group

/-- The characters outside every group, and the opener of each group in its place. The closers that are to
come at the beginning of the text are `pending`. -/
def outside : List Char → Text → Text
  | _, [] => []
  | pending, c :: text =>
    let next := (pendingStep pending c).getD pending
    if pending.isEmpty then c :: outside next text else outside next text

theorem outside_append {pending next : List Char} {u : Text} (h : pendingAfter pending u = some next)
    (v : Text) : outside pending (u ++ v) = outside pending u ++ outside next v := by
  induction u generalizing pending with
  | nil =>
    cases h
    rfl
  | cons c u ih =>
    rw [pendingAfter_cons] at h
    obtain ⟨step, hstep, hu⟩ := Option.bind_eq_some_iff.1 h
    rw [List.cons_append, outside, outside, hstep, Option.getD_some, ih hu]
    split <;> rfl

theorem outside_of_isPlain {text : Text} (h : ∀ c ∈ text, isPlain c = true) (pending : List Char) :
    outside pending text = if pending.isEmpty then text else [] := by
  induction text with
  | nil => simp [outside]
  | cons c text ih =>
    obtain ⟨hc, htext⟩ := List.forall_mem_cons.1 h
    rw [outside, pendingStep_of_isPlain hc, Option.getD_some, ih htext]
    split <;> rfl

theorem outside_group {opener closer : Char} (hg : (opener, closer) ∈ Delimiter.groups) {inner : Text}
    (h : ∀ c ∈ inner, isPlain c = true) : outside [] (opener :: inner ++ [closer]) = [opener] := by
  have hinner := outside_append (pendingAfter_of_isPlain h [closer]) [closer]
  rw [outside_of_isPlain h, outside, pendingStep_closer hg] at hinner
  rw [List.cons_append, outside, pendingStep_opener hg, Option.getD_some, hinner]
  rfl

theorem outside_cons_of_isPlain {c : Char} (hc : isPlain c = true) (text : Text) :
    outside [] (c :: text) = c :: outside [] text := by
  rw [outside, pendingStep_of_isPlain hc]
  rfl

/-- What is outside of groups stands behind a nested text. -/
theorem exists_append_of_mem_outside {c : Char} {text : Text} {pending rest : List Char}
    (h : pendingAfter pending text = some rest) (hc : c ∈ outside pending text) :
    ∃ u v, text = u ++ c :: v ∧ pendingAfter pending u = some [] := by
  induction text generalizing pending with
  | nil => cases hc
  | cons d text ih =>
    rw [pendingAfter_cons] at h
    obtain ⟨next, hstep, htext⟩ := Option.bind_eq_some_iff.1 h
    have hmore : c ∈ outside next text →
        ∃ u v, d :: text = u ++ c :: v ∧ pendingAfter pending u = some [] := fun hm => by
      obtain ⟨u, v, rfl, hu⟩ := ih htext hm
      exact ⟨d :: u, v, rfl, by rw [pendingAfter_cons, hstep]; exact hu⟩
    rw [outside, hstep, Option.getD_some] at hc
    cases pending with
    | nil =>
      rcases List.mem_cons.1 hc with rfl | hm
      · exact ⟨[], text, rfl, rfl⟩
      · exact hmore hm
    | cons closer pending => exact hmore hc

/-- A text without groups is left as it is; in any other one an opener is left. -/
theorem isPlain_or_exists_opener {text : Text} {rest : List Char} (h : pendingAfter [] text = some rest) :
    (∀ c ∈ text, isPlain c = true) ∧ outside [] text = text ∨
      ∃ group ∈ Delimiter.groups, group.1 ∈ outside [] text := by
  induction text with
  | nil => exact .inl ⟨nofun, rfl⟩
  | cons c text ih =>
    rw [pendingAfter_cons] at h
    obtain ⟨next, hstep, htext⟩ := Option.bind_eq_some_iff.1 h
    rcases pendingStep_cases hstep with ⟨closer, hg, -⟩ | ⟨-, -, hnone⟩ | ⟨hc, rfl⟩
    · exact .inr ⟨_, hg, List.mem_cons_self⟩
    · cases hnone
    · rw [outside_cons_of_isPlain hc]
      rcases ih htext with ⟨hplain, hout⟩ | ⟨group, hg, hm⟩
      · exact .inl ⟨List.forall_mem_cons.2 ⟨hc, hplain⟩, by rw [hout]⟩
      · exact .inr ⟨group, hg, List.mem_cons_of_mem c hm⟩

end Shorthand.Group
