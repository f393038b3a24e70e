import Mathlib.Data.List.DropRight
import Shorthand.Proofs.Group.Enclosed
import Shorthand.Proofs.Group.Outside
import Shorthand.Proofs.Rules

/-! # Spaces of a text that the rules let pass

The rules look at the ends of a text: in front of its first opener, a dot or a double quote, and behind its
last closer or double quote, there is no space. Spaces between two groups are not seen. The groups of a
text are told apart from what is between them when each is contracted to its opener (`Group.outside`):
every space is inside a group exactly when the middle of what is left has none (`spaces_enclosed_iff`). -/

namespace Shorthand.Rules
open Shorthand.Group (Nested Enclosed outside pendingAfter isPlain)

theorem spaced_of_check {rules : Rules} {text : Text} (h : rules.check text = .ok ()) : Spaced text := by
  refine hasStraySpace_eq_false_iff.1 (Bool.eq_false_iff.2 fun hstray => ?_)
  rw [check, if_pos hstray] at h
  repeat' split at h
  all_goals cases h

/-- What `takeWhile` does not reach has a character to stop at before it. -/
theorem exists_mem_of_not_mem_takeWhile {marks u v : List Char} {c : Char} (hc : marks.contains c = false)
    (h : c ∉ (u ++ c :: v).takeWhile (!marks.contains ·)) : ∃ m ∈ u, m ∈ marks := by
  by_contra hnone
  have hfree : ∀ m ∈ u, (!marks.contains m) = true := fun m hm => by
    simpa using fun hmarks => hnone ⟨m, hm, hmarks⟩
  rw [List.takeWhile_append_of_pos hfree, List.takeWhile_cons_of_pos (by rw [hc]; rfl)] at h
  exact h (List.mem_append_right u List.mem_cons_self)

theorem Spaced.exists_opener {u v : Text} (h : Spaced (u ++ ' ' :: v)) : ∃ m ∈ u, m ∈ spaceOpeners :=
  exists_mem_of_not_mem_takeWhile rfl h.before

theorem Spaced.exists_closer {u v : Text} (h : Spaced (u ++ ' ' :: v)) : ∃ m ∈ v, m ∈ spaceClosers := by
  have hafter := h.after
  rw [List.reverse_append, List.reverse_cons, List.append_assoc] at hafter
  simpa using exists_mem_of_not_mem_takeWhile rfl hafter

/-- Characters one of which stands after every space when groups are contracted to their openers. -/
def contractedClosers : List Char := ['[', '{', '"']

theorem groups_spaceOpeners : ∀ group ∈ Delimiter.groups, group.1 ∈ spaceOpeners :=
  fun _ hg => List.contains_iff_mem.1 (contains_spaceOpeners hg)

theorem groups_contractedClosers : ∀ group ∈ Delimiter.groups, group.1 ∈ contractedClosers := by decide

/-- The one character after a space that does not close a group is kept. -/
theorem plain_spaceClosers : ∀ m ∈ spaceClosers, isPlain m = true → m ∈ contractedClosers := by
  simp only [spaceClosers, List.forall_mem_cons]
  exact ⟨by decide, by decide, by decide, nofun⟩

/-- The middle of a text whose groups are contracted: from its first character that may stand before spaces
to its last one that may stand after them. -/
def middle (text : Text) : Text :=
  (text.dropWhile (!spaceOpeners.contains ·)).rdropWhile (!contractedClosers.contains ·)

theorem middle_subset (text : Text) : middle text ⊆ text :=
  ((List.rdropWhile_prefix _ _).sublist.trans (List.dropWhile_sublist _)).subset

/-- A piece that holds a character to stop at does not let `dropWhile` past. -/
theorem dropWhile_append_of_mem {marks u : List Char} (h : ∃ m ∈ u, m ∈ marks) (v : Text) :
    (u ++ v).dropWhile (!marks.contains ·) = u.dropWhile (!marks.contains ·) ++ v := by
  obtain ⟨m, hm, hmarks⟩ := h
  have hne : u.dropWhile (!marks.contains ·) ≠ [] := fun hnil => by
    simpa [hmarks] using List.dropWhile_eq_nil_iff.1 hnil m hm
  rw [List.dropWhile_append, if_neg (by simpa using hne)]

theorem mem_middle {u v : Text} (hu : ∃ m ∈ u, m ∈ spaceOpeners) (hv : ∃ m ∈ v, m ∈ contractedClosers)
    (c : Char) : c ∈ middle (u ++ c :: v) := by
  have hv' : ∃ m ∈ v.reverse, m ∈ contractedClosers := by simpa using hv
  rw [middle, List.rdropWhile, dropWhile_append_of_mem hu, List.reverse_append, List.reverse_cons,
    List.append_assoc, dropWhile_append_of_mem hv']
  simp

/-- A character that is looked for in a text is found in what is left of it when its groups are contracted,
or the opener of a group is. -/
theorem exists_mem_outside {marks marks' : List Char} {text : Text} {rest : List Char}
    (h : pendingAfter [] text = some rest) (hplain : ∀ m ∈ marks, isPlain m = true → m ∈ marks')
    (hgroup : ∀ group ∈ Delimiter.groups, group.1 ∈ marks') (hm : ∃ m ∈ text, m ∈ marks) :
    ∃ m ∈ outside [] text, m ∈ marks' := by
  rcases Group.isPlain_or_exists_opener h with ⟨htext, hout⟩ | ⟨group, hg, hopener⟩
  · obtain ⟨m, hm, hmarks⟩ := hm
    exact ⟨m, by rwa [hout], hplain m hmarks (htext m hm)⟩
  · exact ⟨group.1, hopener, hgroup group hg⟩

/-- **Every space of a text that passes is inside a group** exactly when, with each group contracted to its
opener, no space stands between the first `[`, `{`, `"` or `.` and the last `[`, `{` or `"`. -/
theorem spaces_enclosed_iff {rules : Rules} {text : Text} (hcheck : rules.check text = .ok ())
    (hnested : Nested text) :
    (∀ u v, text = u ++ ' ' :: v → Enclosed u (' ' :: v)) ↔ ' ' ∉ middle (outside [] text) := by
  constructor
  · intro henclosed hspace
    obtain ⟨u, v, rfl, hu⟩ := Group.exists_append_of_mem_outside hnested (middle_subset _ hspace)
    exact (Group.enclosed_iff hnested).1 (henclosed u v rfl) hu
  · rintro hmiddle u v rfl
    refine (Group.enclosed_iff hnested).2 fun hu => hmiddle ?_
    -- the space is outside: what is before it and what is after it are contracted on their own
    have hv : pendingAfter [] v = some [] := by
      rw [Nested, Group.pendingAfter_append, hu] at hnested
      exact hnested
    have hspaced := spaced_of_check hcheck
    have hbefore := exists_mem_outside hu (fun _ hm _ => hm) groups_spaceOpeners hspaced.exists_opener
    have hafter := exists_mem_outside hv plain_spaceClosers groups_contractedClosers hspaced.exists_closer
    rw [Group.outside_append hu, Group.outside_cons_of_isPlain rfl]
    exact mem_middle hbefore hafter ' '

/-- Groups of both kinds, several spaces in one of them, and double quotes and dots around the spaces. -/
def roomy : Text := "btn.big[Margin='1 2' Tag=\"x y\"]\x7bClick  me. \"Now\"\x7d+tb\x7ba b\x7d".toList

theorem spaces_enclosed_roomy :
    ({} : Rules).check roomy = .ok () ∧ Nested roomy ∧
      ∀ u v, roomy = u ++ ' ' :: v → Enclosed u (' ' :: v) := by
  have hcheck : ({} : Rules).check roomy = .ok () := by decide
  have hnested : Nested roomy := by decide
  exact ⟨hcheck, hnested, (spaces_enclosed_iff hcheck hnested).2 (by decide)⟩

/-- A space between two groups passes. -/
theorem check_space_between_groups :
    ({} : Rules).check "a[b] c[d]".toList = .ok () ∧ Nested "a[b] c[d]".toList ∧
      ¬∀ u v, "a[b] c[d]".toList = u ++ ' ' :: v → Enclosed u (' ' :: v) := by
  have hnested : Nested "a[b] c[d]".toList := by decide
  refine ⟨by decide, hnested, fun henclosed => ?_⟩
  exact (Group.enclosed_iff hnested).1 (henclosed "a[b]".toList "c[d]".toList rfl) rfl

end Shorthand.Rules
