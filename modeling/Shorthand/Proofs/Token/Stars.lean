import Shorthand.Token
import Shorthand.Proofs.Fragment.Sealed
import Shorthand.Proofs.Text.Characters

/-! # Stars and the counts behind them

A text that is cut before each modifier has a star in any of its parts, and only the first star of a part
is read. So the first star that digits follow is passed over where another one stands before it in its
part. Main statement: what is read off the parts of a text, against its first star that a digit follows
(`countRead?_eq`). -/

namespace Shorthand

namespace Fragment
variable {operators : List Char}

/-- Where a fragment ends: at the end of the text or before an operator. -/
def Ends (operators : List Char) (text : Text) : Prop := text = [] ∨ opensWith operators text = true

theorem Ends.contains_of_mem_head? {text : Text} (h : Ends operators text) {c : Char} (hc : c ∈ text.head?) :
    operators.contains c = true := by
  cases text with
  | nil => cases hc
  | cons d text =>
    cases hc
    exact h.resolve_left (List.cons_ne_nil c text)

/-- A fragment is cut off the text before the next operator. -/
theorem cut_append {c : Char} {rest v : Text} (h : ∀ d ∈ rest, operators.contains d = false)
    (hv : Ends operators v) : cut operators (c :: rest ++ v) = (c :: rest) :: cut operators v := by
  induction rest generalizing c with
  | nil =>
    have hcut : cut operators ([c] ++ v) = cutStep operators c (cut operators v) := rfl
    cases v with
    | nil => rfl
    | cons d v =>
      obtain ⟨f, fs, hf⟩ := exists_cut_cons operators d v
      have hopens : opensWith operators (d :: f) = true := hv.resolve_left (List.cons_ne_nil d v)
      rw [hcut, hf, cutStep, if_pos hopens]
  | cons d rest ih =>
    obtain ⟨hd, hrest⟩ := List.forall_mem_cons.1 h
    have hcut : cut operators (c :: (d :: rest) ++ v) =
        cutStep operators c (cut operators (d :: rest ++ v)) := rfl
    have hopens : opensWith operators (d :: rest) = false := hd
    rw [hcut, ih hrest, cutStep, if_neg (Bool.eq_false_iff.1 hopens)]

/-- A text made of fragments that are cut off one by one. -/
inductive Parted (operators : List Char) : Text → Prop
  | nil : Parted operators []
  | part {c : Char} {rest v : Text} : (∀ d ∈ rest, operators.contains d = false) → Ends operators v →
      Parted operators v → Parted operators (c :: rest ++ v)

theorem parted (operators : List Char) (text : Text) : Parted operators text := by
  induction text with
  | nil => exact .nil
  | cons c text ih =>
    cases ih with
    | nil => exact @Parted.part _ c [] _ nofun (.inl rfl) .nil
    | @part d rest v h hv hparted =>
      cases hd : operators.contains d with
      | true => exact @Parted.part _ c [] _ nofun (.inr hd) (.part h hv hparted)
      | false => exact @Parted.part _ c (d :: rest) _ (List.forall_mem_cons.2 ⟨hd, h⟩) hv hparted

end Fragment

namespace Token
open Fragment (Ends Parted cut cut_append)

/-- The number in the digits at the beginning of a text, or the largest count if that is less. -/
def writtenCount (text : Text) : Nat := min (Text.toNat (text.takeWhile Char.isDigit)) maxCount

/-- What stands before and after the first star that a digit follows. -/
def countStar? : Text → Option (Text × Text)
  | [] => none
  | c :: text =>
    if c = Delimiter.multiply ∧ text.head?.any Char.isDigit = true then some ([], text)
    else (countStar? text).map fun found => (c :: found.1, found.2)

/-- Behind every star of the text a modifier begins. -/
def starsApart : Text → Bool
  | [] => true
  | c :: text => (c != Delimiter.multiply || text.any Delimiter.modifiers.contains) && starsApart text

/-- The count that is read off the parts of a text, one for each modifier in it. -/
def countRead? (text : Text) : Option Nat := (cut Delimiter.modifiers text).findSome? countAfterStar?

/-- The count that is read off the parts of a text behind its first one. -/
def countBehind? (text : Text) : Option Nat :=
  (cut Delimiter.modifiers text).tail.findSome? countAfterStar?

theorem not_isDigit_modifiers : ∀ m ∈ Delimiter.modifiers, m.isDigit = false :=
  Text.forall_mem_of_all (by decide)

theorem head?_any_isDigit {v : Text} (hv : Ends Delimiter.modifiers v) :
    v.head?.any Char.isDigit = false := by
  cases v with
  | nil => rfl
  | cons c v => exact not_isDigit_modifiers c (List.contains_iff_mem.1 (hv.contains_of_mem_head? rfl))

/-! ## One part -/

theorem countAfterStar?_star (text : Text) : countAfterStar? (Delimiter.multiply :: text) =
    if text.head?.any Char.isDigit = true then some (writtenCount text) else none := by
  have hdrop : (Delimiter.multiply :: text).dropWhile (· ≠ Delimiter.multiply) =
      Delimiter.multiply :: text :=
    Text.dropWhile_eq_self fun c hc => by cases hc; rfl
  rw [countAfterStar?, hdrop, List.drop_one, List.tail_cons, writtenCount]
  cases text with
  | nil => rfl
  | cons d text =>
    cases hd : d.isDigit with
    | true => simp [hd]
    | false => simp [hd]

theorem countAfterStar?_append {u : Text} (hu : Delimiter.multiply ∉ u) (text : Text) :
    countAfterStar? (u ++ text) = countAfterStar? text := by
  have hall : ∀ c ∈ u, decide (c ≠ Delimiter.multiply) = true :=
    fun c hc => decide_eq_true fun he => hu (he ▸ hc)
  rw [countAfterStar?, countAfterStar?, List.dropWhile_append_of_pos hall]

/-- Only the first star of a part is read. -/
theorem countAfterStar?_eq (part : Text) : countAfterStar? part =
    (countStar? part).bind fun found =>
      if Delimiter.multiply ∈ found.1 then none else some (writtenCount found.2) := by
  induction part with
  | nil => rfl
  | cons c part ih =>
    by_cases hc : c = Delimiter.multiply
    · subst hc
      rw [countAfterStar?_star, countStar?]
      cases part.head?.any Char.isDigit with
      | true => rfl
      | false => cases countStar? part <;> simp
    · have hone := countAfterStar?_append (u := [c]) (fun h => hc (List.mem_singleton.1 h).symm) part
      rw [List.singleton_append] at hone
      rw [hone, ih, countStar?, if_neg fun h => hc h.1]
      cases countStar? part <;> simp [Ne.symm hc]

theorem append_of_countStar? {text before after : Text} (h : countStar? text = some (before, after)) :
    text = before ++ Delimiter.multiply :: after ∧ after.head?.any Char.isDigit = true := by
  induction text generalizing before with
  | nil => cases h
  | cons c text ih =>
    rw [countStar?] at h
    split at h
    · rename_i hc
      cases h
      exact ⟨congrArg (· :: after) hc.1, hc.2⟩
    · obtain ⟨⟨u, v⟩, hrest, he⟩ := Option.map_eq_some_iff.1 h
      cases he
      obtain ⟨rfl, hdigit⟩ := ih hrest
      exact ⟨rfl, hdigit⟩

/-- A star at the end of a part is not followed by a digit of the next. -/
theorem countStar?_append {v : Text} (hv : Ends Delimiter.modifiers v) (part : Text) :
    countStar? (part ++ v) =
      ((countStar? part).map fun found => (found.1, found.2 ++ v)).or
        ((countStar? v).map fun found => (part ++ found.1, found.2)) := by
  induction part with
  | nil => cases hv' : countStar? v <;> simp [countStar?, hv']
  | cons c part ih =>
    have hhead : (part ++ v).head?.any Char.isDigit = part.head?.any Char.isDigit := by
      cases part with
      | nil => exact head?_any_isDigit hv
      | cons d part => rfl
    rw [List.cons_append, countStar?, countStar?, hhead, ih]
    split
    · rfl
    · cases countStar? part <;> cases countStar? v <;> rfl

theorem writtenCount_append {v : Text} (hv : Ends Delimiter.modifiers v) (text : Text) :
    writtenCount (text ++ v) = writtenCount text := by
  have hstop : v.takeWhile Char.isDigit = [] := by
    cases v with
    | nil => rfl
    | cons c v => exact List.takeWhile_cons_of_neg (by simpa using head?_any_isDigit hv)
  rw [writtenCount, writtenCount, List.takeWhile_append]
  split
  · rename_i hlength
    rw [hstop, List.append_nil, (List.takeWhile_prefix Char.isDigit).eq_of_length hlength]
  · rfl

theorem starsApart_iff {u : Text} (h : ∀ d ∈ u.tail, Delimiter.modifiers.contains d = false) :
    starsApart u = true ↔ Delimiter.multiply ∉ u := by
  induction u with
  | nil => simp [starsApart]
  | cons c u ih =>
    have hany : u.any Delimiter.modifiers.contains = false :=
      List.any_eq_false.2 fun d hd => Bool.eq_false_iff.1 (h d hd)
    have hu := ih fun d hd => h d (List.mem_of_mem_tail hd)
    rw [starsApart, hany, Bool.or_false, Bool.and_eq_true_iff, hu, List.mem_cons, not_or, bne_iff_ne]
    exact and_congr_left' ne_comm

theorem starsApart_append {m : Char} (hm : m ∈ Delimiter.modifiers) (part u : Text) :
    starsApart (part ++ m :: u) = starsApart (m :: u) := by
  induction part with
  | nil => rfl
  | cons c part ih =>
    have hany : (part ++ m :: u).any Delimiter.modifiers.contains = true :=
      List.any_eq_true.2 ⟨m, List.mem_append_right part List.mem_cons_self, List.contains_iff_mem.2 hm⟩
    rw [List.cons_append, starsApart, hany, Bool.or_true, Bool.true_and, ih]

/-! ## All parts -/

theorem countRead?_append {c : Char} {rest v : Text}
    (h : ∀ d ∈ rest, Delimiter.modifiers.contains d = false) (hv : Ends Delimiter.modifiers v) :
    countRead? (c :: rest ++ v) = (countAfterStar? (c :: rest)).or (countRead? v) := by
  rw [countRead?, cut_append h hv, List.findSome?_cons]
  cases countAfterStar? (c :: rest) <;> rfl

theorem countBehind?_append {c : Char} {rest v : Text}
    (h : ∀ d ∈ rest, Delimiter.modifiers.contains d = false) (hv : Ends Delimiter.modifiers v) :
    countBehind? (c :: rest ++ v) = countRead? v := by
  rw [countBehind?, cut_append h hv]
  rfl

/-- **What is read off the parts of a text** is the count behind its first star that a digit follows, if
that is the first star of its part, and else what is read off the parts after this one. -/
theorem countRead?_eq (text : Text) : countRead? text =
    (countStar? text).bind fun found =>
      if starsApart found.1 then some (writtenCount found.2) else countBehind? found.2 := by
  induction Fragment.parted Delimiter.modifiers text with
  | nil => rfl
  | @part c rest v hrest hv _ ih =>
    rw [countRead?_append hrest hv, countAfterStar?_eq, countStar?_append hv]
    cases hpart : countStar? (c :: rest) with
    | some found =>
      obtain ⟨u, w⟩ := found
      obtain ⟨he, hdigit⟩ := append_of_countStar? hpart
      have hmem : ∀ d ∈ (u ++ Delimiter.multiply :: w).tail, Delimiter.modifiers.contains d = false :=
        he ▸ hrest
      have hu : ∀ d ∈ u.tail, Delimiter.modifiers.contains d = false := by
        cases u with
        | nil => exact nofun
        | cons e u => exact fun d hd => hmem d (List.mem_append_left _ hd)
      have hbehind : countBehind? (w ++ v) = countRead? v := by
        cases w with
        | nil => cases hdigit
        | cons e w =>
          refine countBehind?_append (fun d hd => hmem d ?_) hv
          cases u <;> simp [hd]
      simp only [Option.map_some, Option.some_or, Option.bind_some, starsApart_iff hu,
        writtenCount_append hv, hbehind]
      by_cases hstar : Delimiter.multiply ∈ u
      · simp [hstar]
      · simp [hstar]
    | none =>
      simp only [Option.bind_none, Option.none_or, Option.map_none, ih]
      cases hnext : countStar? v with
      | none => rfl
      | some found =>
        obtain ⟨u, w⟩ := found
        obtain ⟨rfl, -⟩ := append_of_countStar? hnext
        cases u with
        | nil => exact absurd (hv.contains_of_mem_head? rfl) (by decide)
        | cons m u =>
          have hm := List.contains_iff_mem.1 (hv.contains_of_mem_head? (c := m) rfl)
          simp only [Option.map_some, Option.bind_some, starsApart_append hm]

end Token
end Shorthand
