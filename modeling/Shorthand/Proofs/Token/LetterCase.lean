import Shorthand.Proofs.Text.Characters
import Shorthand.Proofs.Text.LetterCase
import Shorthand.Proofs.Token.Renaming

/-! # Letter case in tokens

A text is cut at the same places when letters change their case. So a token whose name is written in
another case is read with the other name and with everything else as before. Main statement:
`toTerm_parse_rename`. -/

namespace Shorthand
open Text (small)

/-! ## Fragments -/

namespace Fragment

section Cut

variable {operators : List Char} (hoperators : ∀ m ∈ operators, m.isAlpha = false)
include hoperators

theorem opensWith_small (f : Text) : opensWith operators (small f) = opensWith operators f := by
  cases f with
  | nil => rfl
  | cons c f => exact contains_toLower hoperators c

theorem cutStep_small (c : Char) (fs : List Text) :
    cutStep operators c.toLower (fs.map small) = (cutStep operators c fs).map small := by
  cases fs with
  | nil => rfl
  | cons f fs =>
    simp only [List.map_cons, cutStep, opensWith_small hoperators]
    split <;> rfl

theorem cut_small (text : Text) : cut operators (small text) = (cut operators text).map small := by
  induction text with
  | nil => rfl
  | cons c text ih =>
    change cutStep operators c.toLower (cut operators (small text)) = _
    rw [ih, cutStep_small hoperators]
    rfl

end Cut

theorem continuesGroup_small (f : Text) : continuesGroup (small f) = continuesGroup f := by
  have hcontains : ∀ m, m.isAlpha = false → (small f).contains m = f.contains m := fun m hm =>
    Text.contains_small hm f
  simp only [continuesGroup, Delimiter.groups, List.any_cons, List.any_nil,
    hcontains Delimiter.attributesOpen rfl, hcontains Delimiter.attributesClose rfl,
    hcontains Delimiter.textOpen rfl, hcontains Delimiter.textClose rfl]

theorem glue_small (fs : List Text) : glue (fs.map small) = (glue fs).map small := by
  induction fs with
  | nil => rfl
  | cons f fs ih =>
    change glueStep (small f) (glue (fs.map small)) = (glueStep f (glue fs)).map small
    rw [ih]
    cases glue fs with
    | nil => rfl
    | cons next rest =>
      simp only [List.map_cons, glueStep, continuesGroup_small]
      split <;> simp

theorem eq_climb_small (f : Text) : small f = [Delimiter.climb] ↔ f = [Delimiter.climb] := by
  have hclimb := toLower_eq_iff (m := Delimiter.climb) (by decide)
  cases f with
  | nil => simp
  | cons c f => simp [hclimb, small]

theorem foldClimbs_small (fs : List Text) : foldClimbs (fs.map small) = (foldClimbs fs).map small := by
  induction fs with
  | nil => rfl
  | cons f fs ih =>
    change climbStep (small f) (foldClimbs (fs.map small)) = (climbStep f (foldClimbs fs)).map small
    rw [ih]
    cases foldClimbs fs with
    | nil => rfl
    | cons next rest =>
      simp only [List.map_cons, climbStep, eq_climb_small]
      split <;> simp

/-- Small letters leave the fragments as they are. -/
theorem split_small {operators : List Char} (hoperators : ∀ m ∈ operators, m.isAlpha = false)
    (text : Text) : split operators (small text) = (split operators text).map small := by
  rw [split, cut_small hoperators, glue_small, foldClimbs_small, split]

theorem map_small_split {operators : List Char} (hoperators : ∀ m ∈ operators, m.isAlpha = false)
    {s t : Text} (h : small s = small t) : (split operators s).map small = (split operators t).map small := by
  rw [← split_small hoperators, h, split_small hoperators]

/-- A first fragment that begins in another case begins with what was written. -/
theorem split_append_of_small {operators : List Char} (hoperators : ∀ m ∈ operators, m.isAlpha = false)
    {u u' v r : Text} {fs : List Text} (h : split operators (u ++ v) = (u ++ r) :: fs)
    (hu : small u' = small u) : split operators (u' ++ v) = (u' ++ r) :: fs := by
  have hlengths := congrArg (List.map List.length)
    (map_small_split hoperators (s := u' ++ v) (t := u ++ v) (by simp [hu]))
  have hv : v = r ++ fs.flatten := by
    have hflatten := flatten_split operators (u ++ v)
    rw [h, List.flatten_cons, List.append_assoc] at hflatten
    exact (List.append_cancel_left hflatten).symm
  rw [List.eq_iff_flatten_eq]
  constructor
  · rw [flatten_split, List.flatten_cons, List.append_assoc, hv]
  · rw [h] at hlengths
    simpa [Function.comp_def, Text.length_eq_of_small hu] using hlengths

end Fragment

/-! ## Tokens -/

namespace Token

theorem not_isAlpha_structural : ∀ m ∈ Delimiter.structural, m.isAlpha = false :=
  Text.forall_mem_of_all (by decide)

theorem not_isAlpha_modifiers : ∀ m ∈ Delimiter.modifiers, m.isAlpha = false :=
  Text.forall_mem_of_all (by decide)

/-- A name in another case is read off the first fragment, and the same count and modifiers off all. -/
theorem renamed_of_small {name name' trail : Text}
    (hname : nameOf (Fragment.split Delimiter.modifiers (name ++ trail)) = name)
    (h : small name' = small name) :
    Renamed name' (Fragment.split Delimiter.modifiers (name ++ trail))
      (Fragment.split Delimiter.modifiers (name' ++ trail)) := by
  by_cases hne : name = []
  · have hne' : name' = [] := by
      have hlength := Text.length_eq_of_small h
      rwa [hne, List.length_nil, List.length_eq_zero_iff] at hlength
    rw [hne', ← hne]
    exact ⟨hname, rfl, rfl⟩
  · obtain ⟨f, fs, hsplit, hf⟩ := exists_fragments_of_nameOf (hname.symm ▸ hne)
    rw [hname] at hf
    obtain ⟨mark, rfl, -, hhead, hstar⟩ := exists_mark_of_name hf hne
    have hne' : name' ≠ [] := by
      rintro rfl
      exact hne (List.length_eq_zero_iff.1 (Text.length_eq_of_small h).symm)
    have hhead' : ∀ c ∈ name'.head?, c ∉ Delimiter.modifiers := by
      have hkinds := Text.forall_head?_of_small (contains_toLower not_isAlpha_modifiers) h
        (b := false) (by simpa using hhead)
      simpa using hkinds
    have hstar' : ∀ c ∈ name', c ≠ Delimiter.multiply := by
      rintro c hc rfl
      rw [← Text.mem_small (by decide), h, Text.mem_small (by decide)] at hc
      exact hstar _ hc rfl
    exact renamed_of_split hname hne hne' hhead' hstar' fun r fs hsplit =>
      Fragment.split_append_of_small not_isAlpha_modifiers hsplit h

/-- **A token whose name is written in another case is read as the token of that name.** -/
theorem toTerm_parse_rename (start start' : Nat) (raw : Text) {name : Text}
    (h : small name = small (parse start raw).name) :
    (parse start' ((parse start raw).rename name).raw).toTerm =
      ((parse start raw).rename name).toTerm := by
  obtain ⟨-, hbody⟩ := lead_parse start raw
  have hbody' := Text.forall_head?_of_small (contains_toLower not_isAlpha_structural)
    (s := name ++ (parse start raw).trail) (by rw [Text.small_append, Text.small_append, h]) hbody
  exact toTerm_parse_of_renamed start start' raw hbody' (renamed_of_small (nameOf_parse start raw) h)

end Token
end Shorthand
