import Shorthand.Proofs.Group.Nesting
import Shorthand.Rules

/-! # Texts that the rules let pass

Each rule is given in a form that can be checked on the parts of a text. A text whose groups are nested
is balanced, and texts without stray spaces have none when they are put together. -/

namespace Shorthand.Rules
open Shorthand.Group (Nested)

/-- Every space has one of the characters before it that may stand before a space, and one of those
after it that may stand after one. -/
structure Spaced (text : Text) : Prop where
  before : ' ' ∉ text.takeWhile (!spaceOpeners.contains ·)
  after : ' ' ∉ text.reverse.takeWhile (!spaceClosers.contains ·)

theorem hasStraySpace_eq_false_iff {text : Text} : hasStraySpace text = false ↔ Spaced text := by
  rw [hasStraySpace, Bool.or_eq_false_iff, List.contains_eq_mem, List.contains_eq_mem,
    decide_eq_false_iff_not, decide_eq_false_iff_not]
  exact ⟨fun h => ⟨h.1, h.2⟩, fun h => ⟨h.before, h.after⟩⟩

theorem not_mem_takeWhile_append {p : Char → Bool} {c : Char} : ∀ {u v : Text},
    c ∉ u.takeWhile p → c ∉ v.takeWhile p → c ∉ (u ++ v).takeWhile p
  | [], _, _, hv => hv
  | d :: u, v, hu, hv => by
    cases hd : p d with
    | false => rw [List.cons_append, List.takeWhile_cons_of_neg (by rw [hd]; exact nofun)]; exact nofun
    | true =>
      rw [List.takeWhile_cons_of_pos hd, List.mem_cons, not_or] at hu
      rw [List.cons_append, List.takeWhile_cons_of_pos hd, List.mem_cons, not_or]
      exact ⟨hu.1, not_mem_takeWhile_append hu.2 hv⟩

theorem Spaced.append {u v : Text} (hu : Spaced u) (hv : Spaced v) : Spaced (u ++ v) where
  before := not_mem_takeWhile_append hu.before hv.before
  after := by
    rw [List.reverse_append]
    exact not_mem_takeWhile_append hv.after hu.after

theorem spaced_of_not_mem {text : Text} (h : ' ' ∉ text) : Spaced text where
  before hm := h ((List.takeWhile_sublist _).subset hm)
  after hm := h (List.mem_reverse.1 ((List.takeWhile_sublist _).subset hm))

theorem contains_spaceOpeners {opener closer : Char} (hg : (opener, closer) ∈ Delimiter.groups) :
    spaceOpeners.contains opener = true := by
  rcases Group.eq_of_mem_groups hg with ⟨rfl, -⟩ | ⟨rfl, -⟩ <;> rfl

theorem contains_spaceClosers {opener closer : Char} (hg : (opener, closer) ∈ Delimiter.groups) :
    spaceClosers.contains closer = true := by
  rcases Group.eq_of_mem_groups hg with ⟨-, rfl⟩ | ⟨-, rfl⟩ <;> rfl

/-- Spaces may stand in groups. -/
theorem spaced_group {opener closer : Char} (hg : (opener, closer) ∈ Delimiter.groups) (inner : Text) :
    Spaced (opener :: inner ++ [closer]) := by
  constructor
  · rw [List.cons_append, List.takeWhile_cons_of_neg (by rw [contains_spaceOpeners hg]; exact nofun)]
    exact nofun
  · rw [List.reverse_append, List.reverse_singleton, List.singleton_append,
      List.takeWhile_cons_of_neg (by rw [contains_spaceClosers hg]; exact nofun)]
    exact nofun

theorem isPrefixOf_of_append : ∀ {keyword u v : Text}, (∀ c ∈ v.head?, c ∉ keyword) →
    keyword.isPrefixOf (u ++ v) = true → keyword.isPrefixOf u = true
  | [], _, _, _, _ => rfl
  | _ :: _, [], [], _, h => h
  | k :: keyword, [], c :: v, hv, h => by
    rw [List.nil_append, List.isPrefixOf, Bool.and_eq_true, beq_iff_eq] at h
    exact absurd (h.1 ▸ List.mem_cons_self) (hv c rfl)
  | k :: keyword, d :: u, v, hv, h => by
    rw [List.cons_append, List.isPrefixOf, Bool.and_eq_true] at h
    rw [List.isPrefixOf, Bool.and_eq_true]
    exact ⟨h.1, isPrefixOf_of_append (fun c hc hm => hv c hc (List.mem_cons_of_mem k hm)) h.2⟩

/-- A keyword at the beginning of a text ends before a character that it does not hold. -/
theorem beginsWith_append {keyword u v : Text} (hu : beginsWith keyword u = false)
    (hv : ∀ c ∈ v.head?, c.toLower ∉ keyword.map Char.toLower) : beginsWith keyword (u ++ v) = false := by
  rw [← Bool.not_eq_true, beginsWith, Bool.and_eq_true, List.map_append] at *
  rintro ⟨hne, hescape⟩
  refine hu ⟨hne, isPrefixOf_of_append (fun c hc => ?_) hescape⟩
  rw [List.head?_map] at hc
  obtain ⟨d, hd, rfl⟩ := Option.map_eq_some_iff.1 hc
  exact hv d hd

theorem balanced_of_nested {opener closer : Char} (hg : (opener, closer) ∈ Delimiter.groups)
    {text : Text} (h : Nested text) : balanced opener closer text = true := by
  have hcount := Group.count_pendingAfter hg h
  rw [List.count_nil, Nat.zero_add, Nat.zero_add] at hcount
  exact beq_iff_eq.2 hcount

/-- What has to hold of a text for it to pass. -/
theorem check_eq_ok {rules : Rules} {text : Text} (hne : text ≠ [])
    (hescape : ∀ p ∈ rules.escapePrefixes, beginsWith p text = false) (hspaced : Spaced text)
    (hnested : Nested text) (hreserved : ∀ c ∈ text, reserved.contains c = false)
    (hend : ∀ c ∈ text.getLast?, canEndWith c = true) : rules.check text = .ok () := by
  have hempty : text.isEmpty = false := by simpa using hne
  have hfound : rules.escapePrefixes.find? (beginsWith · text) = none :=
    List.find?_eq_none.2 fun p hp => by rw [hescape p hp]; exact nofun
  have hnone : text.find? reserved.contains = none :=
    List.find?_eq_none.2 fun c hc => by rw [hreserved c hc]; exact nofun
  have hbad : badEnd? text = none := by
    rw [badEnd?, Option.filter_eq_none_iff]
    intro c hc
    simp [hend c hc]
  rw [check, hempty, hfound, hasStraySpace_eq_false_iff.2 hspaced,
    balanced_of_nested Group.text_mem_groups hnested, hnone, hbad,
    balanced_of_nested Group.attributes_mem_groups hnested]
  cases rules.verbatimKeywords.any (beginsWith · text) <;> rfl

/-- A text that holds a character of markup never passes, whatever the rules are. -/
theorem check_of_reserved (rules : Rules) {text : Text} {c : Char} (hc : c ∈ text)
    (hreserved : reserved.contains c = true) : ∃ r, rules.check text = .error r := by
  have hfound : (text.find? reserved.contains).isSome = true :=
    List.find?_isSome.2 ⟨c, hc, hreserved⟩
  obtain ⟨d, hd⟩ := Option.isSome_iff_exists.1 hfound
  rw [check, hd]
  repeat' split
  all_goals exact ⟨_, rfl⟩

end Shorthand.Rules
