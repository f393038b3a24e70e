import Mathlib.Data.List.Find
import Shorthand.Proofs.Fragment.Offsets
import Shorthand.Proofs.Rules
import Shorthand.Proofs.Text.LetterCase

/-! # What is written in a text group

Every rule looks at a text from its ends, counts braces or brackets in it, or looks for characters of markup.
So none sees what stands between the ends of a group, as long as it is none of these characters: the text with
the group emptied is alike to all of them. Main statement: the verdict on a text is the same whatever a text
group in it says (`check_textGroup`). -/

namespace Shorthand.Rules
open Shorthand.Group (isPlain)
open Text (small)

/-- What the rules see of two texts is the same. -/
structure Alike (rules : Rules) (s t : Text) : Prop where
  isEmpty : s.isEmpty = t.isEmpty
  begins : ∀ k ∈ rules.escapePrefixes ++ rules.verbatimKeywords, beginsWith k s = beginsWith k t
  spaces : hasStraySpace s = hasStraySpace t
  balanced : ∀ group ∈ Delimiter.groups, balanced group.1 group.2 s = balanced group.1 group.2 t
  reserved : s.find? reserved.contains = t.find? reserved.contains
  last : s.getLast? = t.getLast?

theorem Alike.check_eq {rules : Rules} {s t : Text} (h : Alike rules s t) : rules.check s = rules.check t := by
  have hfound : rules.escapePrefixes.find? (beginsWith · s) = rules.escapePrefixes.find? (beginsWith · t) :=
    List.find?_congr fun k hk => h.begins k (List.mem_append_left _ hk)
  have hverbatim :
      rules.verbatimKeywords.any (beginsWith · s) = rules.verbatimKeywords.any (beginsWith · t) := by
    rw [Bool.eq_iff_iff, List.any_eq_true, List.any_eq_true]
    exact exists_congr fun k => and_congr_right fun hk => by rw [h.begins k (List.mem_append_right _ hk)]
  have hbraces := h.balanced _ Group.text_mem_groups
  have hbrackets := h.balanced _ Group.attributes_mem_groups
  rw [check, check, h.isEmpty, hfound, h.spaces, hbraces, h.reserved, hverbatim, badEnd?, badEnd?, h.last,
    hbrackets]

/-! ## Keywords by their bytes -/

theorem byteLength_small (text : Text) : (small text).byteLength = text.byteLength := by
  induction text with
  | nil => rfl
  | cons c text ih =>
    have hsize : c.toLower.utf8Size = c.utf8Size := toLower_invariant (by decide) c
    rw [Text.small_cons, Text.byteLength_cons, Text.byteLength_cons, ih, hsize]

/-- A keyword can be compared with as many bytes at the beginning of the text as it has itself; where these
end inside a character, or the text has fewer, it is not there. -/
theorem beginsWith_eq_bytes (keyword text : Text) : beginsWith keyword text =
    (!keyword.isEmpty && (text.splitAtByte? keyword.byteLength).any fun cut =>
      small cut.1 == small keyword) := by
  refine congrArg (!keyword.isEmpty && ·) (Bool.eq_iff_iff.2 ?_)
  rw [List.isPrefixOf_iff_prefix, Option.any_eq_true]
  constructor
  · rintro ⟨rest, hrest⟩
    obtain ⟨u, v, rfl, hu, -⟩ := List.map_eq_append_iff.1 hrest.symm
    have hlength : keyword.byteLength = Text.byteLength u := by
      rw [← byteLength_small keyword, ← byteLength_small u]
      exact congrArg Text.byteLength hu.symm
    exact ⟨(u, v), hlength ▸ Text.splitAtByte?_append u v, beq_iff_eq.2 hu⟩
  · rintro ⟨⟨u, v⟩, hcut, hu⟩
    obtain ⟨rfl, -⟩ := Text.append_of_splitAtByte? hcut
    have hsmall : small u = small keyword := beq_iff_eq.1 hu
    exact ⟨small v, by rw [List.map_append]; exact congrArg (· ++ small v) hsmall.symm⟩

/-! ## A group in a text -/

theorem takeWhile_append_cons {p : Char → Bool} {c : Char} (hc : p c = false) (u v : Text) :
    (u ++ c :: v).takeWhile p = u.takeWhile p := by
  induction u with
  | nil => exact List.takeWhile_cons_of_neg (by rw [hc]; exact nofun)
  | cons d u ih => rw [List.cons_append, List.takeWhile_cons, List.takeWhile_cons, ih]

/-- A keyword is found in front of a character that it does not hold, or not at all. -/
theorem beginsWith_append_cons {keyword : Text} {c : Char} (hc : c.isAlpha = false) (h : c ∉ keyword)
    (u v : Text) : beginsWith keyword (u ++ c :: v) = beginsWith keyword u := by
  cases hu : beginsWith keyword u with
  | false =>
    refine beginsWith_append hu fun d hd hm => ?_
    cases hd
    obtain ⟨k, hk, he⟩ := List.mem_map.1 hm
    rw [(toLower_eq_iff hc c).2 rfl] at he
    exact h ((toLower_eq_iff hc k).1 he ▸ hk)
  | true =>
    rw [beginsWith, Bool.and_eq_true] at hu ⊢
    rw [List.map_append]
    exact ⟨hu.1, List.isPrefixOf_iff_prefix.2
      ((List.isPrefixOf_iff_prefix.1 hu.2).trans (List.prefix_append _ _))⟩

/-- No space in a group is in front of its opener or behind its closer. -/
theorem hasStraySpace_group {opener closer : Char} (hg : (opener, closer) ∈ Delimiter.groups)
    (p inner s : Text) : hasStraySpace (p ++ opener :: (inner ++ closer :: s)) =
      ((p.takeWhile (!spaceOpeners.contains ·)).contains ' ' ||
        (s.reverse.takeWhile (!spaceClosers.contains ·)).contains ' ') := by
  have hopener : (!spaceOpeners.contains opener) = false := by rw [contains_spaceOpeners hg]; rfl
  have hcloser : (!spaceClosers.contains closer) = false := by rw [contains_spaceClosers hg]; rfl
  have hreverse : (p ++ opener :: (inner ++ closer :: s)).reverse =
      s.reverse ++ closer :: (p ++ opener :: inner).reverse := by simp
  rw [hasStraySpace, takeWhile_append_cons hopener, hreverse, takeWhile_append_cons hcloser]

theorem count_group {c : Char} (opener closer : Char) (p : Text) {inner : Text} (hc : c ∉ inner) (s : Text) :
    (p ++ opener :: (inner ++ closer :: s)).count c = (p ++ opener :: closer :: s).count c := by
  simp [List.count_cons, List.count_eq_zero_of_not_mem hc]

/-- Neither opens nor closes a group, and is no character of markup. -/
def isInert (c : Char) : Bool := isPlain c && !reserved.contains c

/-- A group that is emptied is alike to the rules. -/
theorem alike_emptied {rules : Rules} {opener closer : Char} (hg : (opener, closer) ∈ Delimiter.groups)
    (hrules : ∀ k ∈ rules.escapePrefixes ++ rules.verbatimKeywords, opener ∉ k) {inner : Text}
    (hinner : ∀ c ∈ inner, isInert c = true) (p s : Text) :
    Alike rules (p ++ opener :: (inner ++ closer :: s)) (p ++ opener :: closer :: s) := by
  have hletter : opener.isAlpha = false := by
    rcases Group.eq_of_mem_groups hg with ⟨rfl, -⟩ | ⟨rfl, -⟩ <;> rfl
  have hplain : ∀ c ∈ inner, isPlain c = true := fun c hc => (Bool.and_eq_true_iff.1 (hinner c hc)).1
  have hnone : inner.find? reserved.contains = none := List.find?_eq_none.2 fun c hc => by
    simpa using (Bool.and_eq_true_iff.1 (hinner c hc)).2
  constructor
  · cases p <;> rfl
  · intro k hk
    rw [beginsWith_append_cons hletter (hrules k hk), beginsWith_append_cons hletter (hrules k hk)]
  · exact (hasStraySpace_group hg p inner s).trans (hasStraySpace_group hg p [] s).symm
  · intro group hgroup
    have hfree : group.1 ∉ inner ∧ group.2 ∉ inner :=
      ⟨fun hm => (Group.ne_of_isPlain hgroup (hplain _ hm)).1 rfl,
        fun hm => (Group.ne_of_isPlain hgroup (hplain _ hm)).2 rfl⟩
    rw [balanced, balanced, count_group opener closer p hfree.1, count_group opener closer p hfree.2]
  · rw [List.find?_append, List.find?_append, List.find?_cons, List.find?_cons, List.find?_append, hnone,
      Option.none_or]
  · simp [List.getLast?_append, List.getLast?_cons]

/-- **The verdict does not depend on what is written in a text group**, wherever in a text the group stands,
for rules whose prefixes and keywords hold no opening brace. -/
theorem check_textGroup (rules : Rules) (p s : Text) {c c' : Text}
    (hrules : ∀ k ∈ rules.escapePrefixes ++ rules.verbatimKeywords, Delimiter.textOpen ∉ k)
    (hc : ∀ x ∈ c, isInert x = true) (hc' : ∀ x ∈ c', isInert x = true) :
    rules.check (p ++ Delimiter.textOpen :: (c ++ Delimiter.textClose :: s)) =
      rules.check (p ++ Delimiter.textOpen :: (c' ++ Delimiter.textClose :: s)) :=
  (alike_emptied Group.text_mem_groups hrules hc p s).check_eq.trans
    (alike_emptied Group.text_mem_groups hrules hc' p s).check_eq.symm

/-- Characters that may stand around spaces, operators, and a letter of two bytes that begins at the third
byte and so is cut at the length of the stock escape prefix. -/
def talkative : Text := "é \". >+ .\" #*".toList

theorem check_talkative :
    (∀ k ∈ ({} : Rules).escapePrefixes ++ ({} : Rules).verbatimKeywords, Delimiter.textOpen ∉ k) ∧
    (∀ x ∈ talkative, isInert x = true) ∧ (∀ x ∈ ([] : Text), isInert x = true) ∧
    ({} : Rules).check ("as\x7b".toList ++ talkative ++ "\x7d[k='v w']".toList) = .ok () ∧
    ({} : Rules).check ("a s\x7b".toList ++ talkative ++ "\x7d".toList) = .error .straySpace := by
  have hrules : ∀ k ∈ ({} : Rules).escapePrefixes ++ ({} : Rules).verbatimKeywords,
      Delimiter.textOpen ∉ k := by decide
  have hinert : ∀ x ∈ talkative, isInert x = true := List.all_eq_true.1 (by decide)
  have hempty : ∀ x ∈ ([] : Text), isInert x = true := nofun
  have hok := check_textGroup {} "as".toList "[k='v w']".toList hrules hinert hempty
  have hstray := check_textGroup {} "a s".toList [] hrules hinert hempty
  exact ⟨hrules, hinert, hempty, hok.trans (by decide), hstray.trans (by decide)⟩

end Shorthand.Rules
