import Shorthand.Proofs.Text
import Shorthand.Rules
import Shorthand.Unicode.Lowercase

/-! # Letter case

The case of an ASCII letter decides nothing about the kinds of characters that texts are read by, and it is
gone in lower case, also where a sigma next to the letter is looked at. Main statement: `lowercase_small`. -/

namespace Shorthand

/-- The small letters stand as far behind the capitals as in the table of codes. -/
theorem toLower_capital : ∀ k < 26, (Char.ofNat (0x41 + k)).toLower = Char.ofNat (0x61 + k) := by
  decide

/-- What holds of equal characters and of each capital and its small letter holds of a character and its
small form. -/
theorem forall_toLower {P : Char → Char → Prop} (hsame : ∀ c, P c c)
    (hletter : ∀ k < 26, P (Char.ofNat (0x41 + k)) (Char.ofNat (0x61 + k))) (c : Char) :
    P c c.toLower := by
  by_cases h : c.val ≥ 'A'.val ∧ c.val ≤ 'Z'.val
  · have hfirst : 0x41 ≤ c.toNat := UInt32.le_iff_toNat_le.1 h.1
    have hlast : c.toNat ≤ 0x5A := UInt32.le_iff_toNat_le.1 h.2
    obtain ⟨k, hk⟩ := Nat.exists_eq_add_of_le hfirst
    have hlt : k < 26 := by omega
    have hc : c = Char.ofNat (0x41 + k) := by rw [← hk, Char.ofNat_toNat]
    rw [hc, toLower_capital k hlt]
    exact hletter k hlt
  · have hlower : c.toLower = c := dif_neg h
    rw [hlower]
    exact hsame c

/-- A function of characters that does not tell a capital from its small letter. -/
theorem toLower_invariant {α : Type} {f : Char → α}
    (h : ∀ k < 26, f (Char.ofNat (0x61 + k)) = f (Char.ofNat (0x41 + k))) (c : Char) :
    f c.toLower = f c :=
  forall_toLower (P := fun c d => f d = f c) (fun _ => rfl) h c

/-- A character that is no letter is the small form of itself alone. -/
theorem toLower_eq_iff {m : Char} (h : m.isAlpha = false) (c : Char) : c.toLower = m ↔ c = m := by
  have hletters : ∀ k < 26, (Char.ofNat (0x41 + k)).isAlpha = true ∧ (Char.ofNat (0x61 + k)).isAlpha = true := by
    decide
  refine forall_toLower (P := fun c d => d = m ↔ c = m) (fun _ => Iff.rfl) (fun k hk => ?_) c
  constructor
  · rintro rfl
    rw [(hletters k hk).2] at h
    cases h
  · rintro rfl
    rw [(hletters k hk).1] at h
    cases h

/-- Characters that are no letters are told apart from all others in the small form too. -/
theorem contains_toLower {marks : List Char} (h : ∀ m ∈ marks, m.isAlpha = false) (c : Char) :
    marks.contains c.toLower = marks.contains c := by
  rw [Bool.eq_iff_iff, List.contains_iff_mem, List.contains_iff_mem]
  constructor
  · intro hm
    rwa [(toLower_eq_iff (h _ hm) c).1 rfl]
  · intro hm
    rwa [(toLower_eq_iff (h c hm) c).2 rfl]

namespace Unicode

theorem isWord_toLower (c : Char) : isWord c.toLower = isWord c := toLower_invariant (by decide) c

theorem isCased_toLower (c : Char) : isCased c.toLower = isCased c := toLower_invariant (by decide) c

theorem isCaseIgnorable_toLower (c : Char) : isCaseIgnorable c.toLower = isCaseIgnorable c :=
  toLower_invariant (by decide) c

theorem lowercaseChar_toLower (c : Char) : lowercaseChar c.toLower = lowercaseChar c :=
  toLower_invariant (by decide) c

end Unicode

/-! ## Texts -/

namespace Text

/-- The text with small letters for its ASCII capitals. -/
def small (text : Text) : Text := text.map Char.toLower

@[simp] theorem small_nil : small [] = [] := rfl

@[simp] theorem small_cons (c : Char) (text : Text) : small (c :: text) = c.toLower :: small text := rfl

@[simp] theorem small_append (s t : Text) : small (s ++ t) = small s ++ small t := List.map_append

@[simp] theorem length_small (text : Text) : (small text).length = text.length := List.length_map _

theorem length_eq_of_small {s t : Text} (h : small s = small t) : s.length = t.length := by
  rw [← length_small s, h, length_small]

section Kinds

variable {p : Char → Bool} (hp : ∀ c, p c.toLower = p c)
include hp

theorem takeWhile_small (text : Text) : (small text).takeWhile p = small (text.takeWhile p) := by
  have hcomp : p ∘ Char.toLower = p := funext hp
  rw [small, List.takeWhile_map, hcomp, small]

theorem dropWhile_small (text : Text) : (small text).dropWhile p = small (text.dropWhile p) := by
  have hcomp : p ∘ Char.toLower = p := funext hp
  rw [small, List.dropWhile_map, hcomp, small]

end Kinds

/-- A character that is no letter is as often in the small text. -/
theorem count_small {m : Char} (h : m.isAlpha = false) (text : Text) :
    (small text).count m = text.count m := by
  induction text with
  | nil => rfl
  | cons c text ih => simp [List.count_cons, ih, toLower_eq_iff h]

theorem mem_small {m : Char} (h : m.isAlpha = false) {text : Text} : m ∈ small text ↔ m ∈ text := by
  rw [← List.count_pos_iff, ← List.count_pos_iff, count_small h]

theorem contains_small {m : Char} (h : m.isAlpha = false) (text : Text) :
    (small text).contains m = text.contains m := by
  rw [Bool.eq_iff_iff, List.contains_iff_mem, List.contains_iff_mem, mem_small h]

/-- Texts that differ in letter case begin with characters of the same kind. -/
theorem forall_head?_of_small {p : Char → Bool} (hp : ∀ c, p c.toLower = p c) {s t : Text}
    (h : small s = small t) {b : Bool} (ht : ∀ c ∈ t.head?, p c = b) : ∀ c ∈ s.head?, p c = b := by
  intro c hc
  cases s with
  | nil => cases hc
  | cons c' s =>
    cases hc
    cases t with
    | nil => cases h
    | cons d t =>
      rw [small_cons, small_cons] at h
      rw [← hp c, (List.cons.inj h).1, hp d]
      exact ht d rfl

end Text

namespace Unicode
open Text (small)

theorem casedFollows_small (text : Text) : casedFollows (small text) = casedFollows text := by
  rw [casedFollows, casedFollows, Text.dropWhile_small isCaseIgnorable_toLower]
  cases text.dropWhile isCaseIgnorable with
  | nil => rfl
  | cons c rest => exact isCased_toLower c

theorem lowercaseAfter_small (text : Text) (afterCased : Bool) :
    lowercaseAfter afterCased (small text) = lowercaseAfter afterCased text := by
  induction text generalizing afterCased with
  | nil => rfl
  | cons c text ih =>
    have hsigma : c.toLower = 'Σ' ↔ c = 'Σ' := toLower_eq_iff (by decide) c
    rw [Text.small_cons, lowercaseAfter, lowercaseAfter, ih, casedFollows_small, lowercaseChar_toLower,
      isCaseIgnorable_toLower, isCased_toLower]
    simp only [hsigma]

/-- **Lower case does not depend on the case of ASCII letters.** -/
theorem lowercase_small (text : Text) : lowercase (small text) = lowercase text :=
  lowercaseAfter_small text false

end Unicode
end Shorthand
