import Shorthand.Markup.Reference

/-! # What decoding changes

A known reference is written with letters, digits and a number sign, so none reaches over another
character (`decode_append_cons`). A reference that is replaced leaves one character, so of its ampersand
and its semicolon one is gone. Main statement: decoding leaves a text alone exactly when the text holds no
known reference, and otherwise takes some of its ampersands and semicolons away. -/

namespace Shorthand.Markup.Reference

/-- A character that can stand between the ampersand and the semicolon of a known reference. -/
def isInner (c : Char) : Bool := c == '#' || c.isAlphanum

theorem isInner_of_hex? {c : Char} {n : Nat} (h : Text.Digit.hex? c = some n) : isInner c = true := by
  have hlower : 'a' ≤ c ∧ c ≤ 'f' → c.isAlphanum = true := by
    intro hc
    have hletter : c.isLower = true :=
      Bool.and_eq_true_iff.2 ⟨decide_eq_true hc.1, decide_eq_true (Nat.le_trans hc.2 (by decide))⟩
    exact Bool.or_eq_true_iff.2 (.inl (Bool.or_eq_true_iff.2 (.inr hletter)))
  have hupper : 'A' ≤ c ∧ c ≤ 'F' → c.isAlphanum = true := by
    intro hc
    have hletter : c.isUpper = true := decide_eq_true ⟨hc.1, Nat.le_trans hc.2 (by decide)⟩
    exact Bool.or_eq_true_iff.2 (.inl (Bool.or_eq_true_iff.2 (.inl hletter)))
  unfold Text.Digit.hex? at h
  split at h
  · rename_i hdigit
    simp [isInner, Char.isAlphanum, hdigit]
  · split at h
    · rename_i hc
      simp [isInner, hlower hc]
    · split at h
      · rename_i hc
        simp [isInner, hupper hc]
      · cases h

theorem isInner_of_mapM_hex? : ∀ {digits : Text} {ns : List Nat},
    digits.mapM Text.Digit.hex? = some ns → ∀ c ∈ digits, isInner c = true
  | [], _, _, _, hc => nomatch hc
  | d :: digits, ns, h, c, hc => by
    rw [List.mapM_cons] at h
    obtain ⟨n, hn, h⟩ := Option.bind_eq_some_iff.1 h
    obtain ⟨ms, hms, -⟩ := Option.bind_eq_some_iff.1 h
    rcases List.mem_cons.1 hc with rfl | hc
    · exact isInner_of_hex? hn
    · exact isInner_of_mapM_hex? hms c hc

theorem isInner_of_number? {digits : Text} {n : Nat} (h : number? digits = some n) :
    ∀ c ∈ digits, isInner c = true := by
  cases digits with
  | nil => cases h
  | cons d digits =>
    rw [number?] at h
    split at h
    · rename_i hx
      rw [Text.Digit.hexNumber?] at h
      split at h
      · cases h
      · obtain ⟨ns, hns, -⟩ := Option.map_eq_some_iff.1 h
        intro c hc
        rcases List.mem_cons.1 hc with rfl | hc
        · rcases hx with rfl | rfl <;> rfl
        · exact isInner_of_mapM_hex? hns c hc
    · rw [Text.Digit.decimalNumber?] at h
      split at h
      · cases h
      · rename_i hall
        intro c hc
        have hdigit : c.isDigit = true := by
          simp only [Bool.or_eq_true, Bool.not_eq_true', not_or, Bool.not_eq_false] at hall
          exact List.all_eq_true.1 hall.2 c hc
        simp [isInner, Char.isAlphanum, hdigit]

theorem isInner_of_named? {name t : Text} (h : named? name = some t) :
    ∀ c ∈ name, isInner c = true := by
  unfold named? at h
  split at h
  · rename_i c hbasic
    unfold basic? at hbasic
    split at hbasic <;> first | exact List.all_eq_true.1 rfl | cases hbasic
  · split at h
    · rename_i hall
      intro c hc
      simp [isInner, List.all_eq_true.1 hall c hc]
    · cases h

/-- Known references are written with letters, digits and the number sign. -/
theorem isInner_of_resolve? {r t : Text} (h : resolve? r = some t) : ∀ c ∈ r, isInner c = true := by
  unfold resolve? at h
  split at h
  · obtain ⟨n, hn, -⟩ := Option.bind_eq_some_iff.1 h
    intro c hc
    rcases List.mem_cons.1 hc with rfl | hc
    · rfl
    · exact isInner_of_number? hn c hc
  · exact isInner_of_named? h

/-- A known reference stands for one character. -/
theorem length_of_resolve? {r t : Text} (h : resolve? r = some t) : t.length = 1 := by
  unfold resolve? at h
  split at h
  · obtain ⟨n, -, hcode⟩ := Option.bind_eq_some_iff.1 h
    rw [ofCode?] at hcode
    split at hcode
    · cases hcode
    · obtain ⟨c, -, rfl⟩ := Option.map_eq_some_iff.1 hcode
      rfl
  · unfold named? at h
    split at h
    · cases h
      rfl
    · split at h
      · obtain ⟨code, -, rfl⟩ := Option.map_eq_some_iff.1 h
        rfl
      · cases h

/-! ## Decoding in parts -/

theorem text_open (u d : Text) : (⟨u, false, d⟩ : Progress).text = u ++ d := rfl

theorem text_closed (u d : Text) : (⟨u, true, d⟩ : Progress).text = u ++ ';' :: d := rfl

theorem afterAmpersand_open (u d : Text) :
    (⟨u, false, d⟩ : Progress).afterAmpersand = '&' :: (u ++ d) := rfl

theorem afterAmpersand_closed (u d : Text) : (⟨u, true, d⟩ : Progress).afterAmpersand =
    (resolve? u).elim ('&' :: (u ++ ';' :: d)) (· ++ d) := by
  cases h : resolve? u <;> simp [Progress.afterAmpersand, text_closed, h]

theorem cons_semicolon (p : Progress) : p.cons ';' = ⟨[], true, p.text⟩ := rfl

theorem cons_ampersand (p : Progress) : p.cons '&' = ⟨[], false, p.afterAmpersand⟩ := rfl

theorem cons_other {c : Char} (hsemicolon : c ≠ ';') (hampersand : c ≠ '&') (p : Progress) :
    p.cons c = ⟨c :: p.pending, p.closed, p.decoded⟩ := by
  rw [Progress.cons, if_neg hsemicolon, if_neg hampersand]

/-- Whatever comes in front, `q` reads as `p` does, followed by `after`. -/
structure Extends (after : Text) (p q : Progress) : Prop where
  text : q.text = p.text ++ after
  afterAmpersand : ∀ u, (⟨u ++ q.pending, q.closed, q.decoded⟩ : Progress).afterAmpersand =
    (⟨u ++ p.pending, p.closed, p.decoded⟩ : Progress).afterAmpersand ++ after

theorem Extends.cons {after : Text} {p q : Progress} (h : Extends after p q) (c : Char) :
    Extends after (p.cons c) (q.cons c) := by
  by_cases hsemicolon : c = ';'
  · subst hsemicolon
    rw [cons_semicolon, cons_semicolon, h.text]
    refine ⟨rfl, fun u => ?_⟩
    rw [afterAmpersand_closed, afterAmpersand_closed]
    cases resolve? (u ++ []) <;> simp
  · by_cases hampersand : c = '&'
    · subst hampersand
      have hnow : q.afterAmpersand = p.afterAmpersand ++ after := h.afterAmpersand []
      rw [cons_ampersand, cons_ampersand, hnow]
      exact ⟨rfl, fun u => by simp [afterAmpersand_open]⟩
    · rw [cons_other hsemicolon hampersand, cons_other hsemicolon hampersand]
      refine ⟨congrArg (c :: ·) h.text, fun u => ?_⟩
      have hmore := h.afterAmpersand (u ++ [c])
      rwa [List.append_assoc, List.append_assoc] at hmore

/-- What is pending already can be no known reference any more. -/
theorem extends_of_not_isInner {c : Char} (hc : isInner c = false) {p : Progress}
    (hmem : c ∈ p.pending) : Extends p.text {} p := by
  refine ⟨rfl, fun u => ?_⟩
  obtain ⟨pending, closed, decoded⟩ := p
  have hunknown : resolve? (u ++ pending) = none := by
    cases hr : resolve? (u ++ pending) with
    | none => rfl
    | some t =>
      rw [isInner_of_resolve? hr c (List.mem_append_right u hmem)] at hc
      cases hc
  cases closed with
  | false => simp [afterAmpersand_open, text_open]
  | true => simp [afterAmpersand_open, afterAmpersand_closed, text_closed, hunknown]

theorem scan_append (s text : Text) : scan (s ++ text) = s.foldr Progress.cons (scan text) :=
  List.foldr_append

/-- A character that is in no reference. -/
def isBoundary (c : Char) : Bool := !isInner c && c != ';' && c != '&'

/-- Decoding stops at a character that is in no reference. -/
theorem decode_append_cons {c : Char} (hc : isBoundary c = true) (s text : Text) :
    decode (s ++ c :: text) = decode s ++ decode (c :: text) := by
  simp only [isBoundary, Bool.and_eq_true, Bool.not_eq_true', bne_iff_ne] at hc
  obtain ⟨⟨hc, hsemicolon⟩, hampersand⟩ := hc
  have hstart : Extends (decode (c :: text)) {} (scan (c :: text)) := by
    refine extends_of_not_isInner hc ?_
    change c ∈ ((scan text).cons c).pending
    rw [cons_other hsemicolon hampersand]
    exact List.mem_cons_self
  have hextends : Extends (decode (c :: text)) (scan s) (s.foldr Progress.cons (scan (c :: text))) := by
    induction s with
    | nil => exact hstart
    | cons d s ih => exact ih.cons d
  rw [decode, scan_append, hextends.text]
  rfl

/-! ## Known references -/

/-- The text holds a reference that is known. -/
def HoldsKnown (text : Text) : Prop :=
  ∃ u r v, text = u ++ '&' :: r ++ ';' :: v ∧ (resolve? r).isSome = true

/-- How many ampersands and semicolons a text holds. -/
def marks (text : Text) : Nat := text.countP fun c => c == '&' || c == ';'

@[simp] theorem marks_append (s t : Text) : marks (s ++ t) = marks s + marks t := List.countP_append

theorem marks_ampersand (text : Text) : marks ('&' :: text) = marks text + 1 := by simp [marks]

theorem marks_semicolon (text : Text) : marks (';' :: text) = marks text + 1 := by simp [marks]

theorem marks_cons_mono {s t : Text} (h : marks s ≤ marks t) (c : Char) :
    marks (c :: s) ≤ marks (c :: t) := by
  rw [marks, marks, List.countP_cons, List.countP_cons]
  exact Nat.add_le_add_right h _

/-- A reference that is replaced takes a mark away. -/
theorem marks_afterAmpersand (p : Progress) : p.afterAmpersand = '&' :: p.text ∨
    (∃ decoded, p.text = p.pending ++ ';' :: decoded ∧ (resolve? p.pending).isSome = true) ∧
      marks p.afterAmpersand < marks ('&' :: p.text) := by
  obtain ⟨pending, closed, decoded⟩ := p
  cases closed with
  | false => exact .inl (afterAmpersand_open pending decoded)
  | true =>
    rw [afterAmpersand_closed, text_closed]
    cases hr : resolve? pending with
    | none => exact .inl rfl
    | some t =>
      refine .inr ⟨⟨decoded, rfl, rfl⟩, ?_⟩
      have ht : marks t ≤ 1 := length_of_resolve? hr ▸ List.countP_le_length
      rw [marks_ampersand, marks_append, marks_semicolon, Option.elim, marks_append]
      omega

theorem decode_cons_ampersand (text : Text) : decode ('&' :: text) = (scan text).afterAmpersand := rfl

theorem marks_decode_cons_le (c : Char) (text : Text) :
    marks (decode (c :: text)) ≤ marks (c :: decode text) := by
  by_cases hc : c = '&'
  · subst hc
    rw [decode_cons_ampersand]
    rcases marks_afterAmpersand (scan text) with h | ⟨-, h⟩
    · exact Nat.le_of_eq (congrArg marks h)
    · exact Nat.le_of_lt h
  · exact Nat.le_of_eq (congrArg marks (decode_cons hc text))

theorem marks_decode_append_le (s text : Text) :
    marks (decode (s ++ text)) ≤ marks s + marks (decode text) := by
  induction s with
  | nil => exact Nat.le_of_eq (Nat.zero_add _).symm
  | cons c s ih =>
    rw [← marks_append] at ih ⊢
    exact Nat.le_trans (marks_decode_cons_le c (s ++ text)) (marks_cons_mono ih c)

/-- Decoding never adds a mark. -/
theorem marks_decode_le (text : Text) : marks (decode text) ≤ marks text := by
  have h := marks_decode_append_le text []
  rwa [List.append_nil] at h

theorem HoldsKnown.cons {text : Text} (h : HoldsKnown text) (c : Char) : HoldsKnown (c :: text) := by
  obtain ⟨u, r, v, rfl, hr⟩ := h
  exact ⟨c :: u, r, v, rfl, hr⟩

theorem holdsKnown_of_decode_ne {text : Text} (h : decode text ≠ text) : HoldsKnown text := by
  induction text with
  | nil => exact absurd decode_nil h
  | cons c text ih =>
    by_cases hrest : decode text = text
    · by_cases hc : c = '&'
      · subst hc
        have hscan : (scan text).text = text := hrest
        rcases marks_afterAmpersand (scan text) with hsame | ⟨⟨decoded, htext, hr⟩, -⟩
        · rw [decode_cons_ampersand, hsame, hscan] at h
          exact absurd rfl h
        · rw [hscan] at htext
          exact ⟨[], (scan text).pending, decoded, congrArg ('&' :: ·) htext, hr⟩
      · rw [decode_cons hc, hrest] at h
        exact absurd rfl h
    · exact (ih hrest).cons c

theorem foldr_cons_of_isInner (p : Progress) : ∀ {r : Text}, (∀ c ∈ r, isInner c = true) →
    r.foldr Progress.cons p = ⟨r ++ p.pending, p.closed, p.decoded⟩
  | [], _ => rfl
  | c :: r, h => by
    have hc := h c List.mem_cons_self
    have hsemicolon : c ≠ ';' := fun he => absurd (he ▸ hc) (by decide)
    have hampersand : c ≠ '&' := fun he => absurd (he ▸ hc) (by decide)
    rw [List.foldr_cons, foldr_cons_of_isInner p fun d hd => h d (List.mem_cons_of_mem c hd),
      cons_other hsemicolon hampersand]
    rfl

/-- A known reference is replaced, whatever stands around it. -/
theorem decode_reference {r t : Text} (h : resolve? r = some t) (v : Text) :
    decode ('&' :: r ++ ';' :: v) = t ++ decode v := by
  have hscan : scan (r ++ ';' :: v) = ⟨r, true, decode v⟩ := by
    have hclosed : scan (';' :: v) = ⟨[], true, decode v⟩ := rfl
    rw [scan_append, foldr_cons_of_isInner _ (isInner_of_resolve? h), hclosed, List.append_nil]
  rw [List.cons_append, decode_cons_ampersand, hscan, afterAmpersand_closed, h]
  rfl

theorem HoldsKnown.marks_decode_lt {text : Text} (h : HoldsKnown text) :
    marks (decode text) < marks text := by
  obtain ⟨u, r, v, rfl, hr⟩ := h
  obtain ⟨t, ht⟩ := Option.isSome_iff_exists.1 hr
  have hle := marks_decode_append_le u ('&' :: r ++ ';' :: v)
  have hone : marks t ≤ 1 := length_of_resolve? ht ▸ List.countP_le_length
  have hv := marks_decode_le v
  rw [decode_reference ht, marks_append] at hle
  rw [List.append_assoc, marks_append, marks_append, marks_ampersand, marks_semicolon]
  omega

/-- **Decoding leaves a text alone exactly when it holds no known reference.** -/
theorem decode_eq_self_iff {text : Text} : decode text = text ↔ ¬ HoldsKnown text := by
  constructor
  · intro h hknown
    have hlt := hknown.marks_decode_lt
    rw [h] at hlt
    exact Nat.lt_irrefl _ hlt
  · intro h
    exact Classical.byContradiction fun hne => h (holdsKnown_of_decode_ne hne)

/-- As many marks are left only when nothing is changed. -/
theorem decode_eq_self_of_marks {text : Text} (h : marks text ≤ marks (decode text)) :
    decode text = text :=
  decode_eq_self_iff.2 fun hknown => Nat.not_lt_of_le h hknown.marks_decode_lt

end Shorthand.Markup.Reference
