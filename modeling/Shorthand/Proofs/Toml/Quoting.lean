import Shorthand.Proofs.Text
import Shorthand.Toml.Quote
import Shorthand.Toml.Writer

/-! # Strings in quotes

Every string is read back from the form it is written in, and what follows it is left, unless that begins
with one more quote. Main statement: `string?_string`. -/

namespace Shorthand.Toml

/-! ## Reading piece by piece -/

namespace Quote

variable {piece? : Text → Option Piece} {text s rest : Text}

/-- The pieces of a text make a string and leave a rest; each piece is shorter than what it is read from. -/
inductive Reads (piece? : Text → Option Piece) : Text → Text → Text → Prop
  | close {text chunk rest : Text} : piece? text = some (.close chunk rest) → Reads piece? text chunk rest
  | more {text chunk next s rest : Text} : piece? text = some (.more chunk next) →
      next.length < text.length → Reads piece? next s rest → Reads piece? text (chunk ++ s) rest

theorem Reads.char {c : Char} {next : Text} (hpiece : piece? text = some (.more [c] next))
    (hshorter : next.length < text.length) (hnext : Reads piece? next s rest) :
    Reads piece? text (c :: s) rest :=
  .more hpiece hshorter hnext

theorem Reads.pieces? (h : Reads piece? text s rest) : ∀ {fuel : Nat}, text.length < fuel →
    pieces? piece? fuel text = some (s, rest) := by
  induction h with
  | close hpiece =>
    intro fuel hfuel
    cases fuel with
    | zero => exact absurd hfuel (Nat.not_lt_zero _)
    | succ fuel => rw [Quote.pieces?, hpiece]
  | more hpiece hshorter hnext ih =>
    intro fuel hfuel
    cases fuel with
    | zero => exact absurd hfuel (Nat.not_lt_zero _)
    | succ fuel =>
      rw [Quote.pieces?, hpiece]
      simp only [ih (show _ < fuel by omega), Option.map_some]

/-- There is fuel enough. -/
theorem Reads.body? (h : Reads piece? text s rest) : body? piece? text = some (s, rest) :=
  h.pieces? (Nat.lt_succ_self _)

/-! ## Escapes -/

theorem toNat_lt_of_isControl {c : Char} (h : isControl c = true) : c.toNat < 0x80 := by
  simp only [isControl, Bool.or_eq_true, Bool.and_eq_true, decide_eq_true_eq, beq_iff_eq] at h
  rcases h with ⟨hlt, -⟩ | rfl
  · omega
  · decide

/-- What holds of the control characters, looked at one by one. -/
theorem forall_isControl {P : Char → Prop}
    (h : ∀ n < 0x80, isControl (Char.ofNat n) = true → P (Char.ofNat n)) {c : Char}
    (hc : isControl c = true) : P c := by
  have hcode := h c.toNat (toNat_lt_of_isControl hc)
  rw [Char.ofNat_toNat] at hcode
  exact hcode hc

/-- The four digits of a control character name it. -/
theorem hexNumber?_codeEscape {c : Char} (h : isControl c = true) :
    (Text.Digit.hexNumber? ((Writer.codeEscape c).drop 2)).bind Text.Digit.char? = some c :=
  forall_isControl (P := fun c =>
    (Text.Digit.hexNumber? ((Writer.codeEscape c).drop 2)).bind Text.Digit.char? = some c) (by decide) h

theorem escape?_codeEscape {c : Char} (h : isControl c = true) (text : Text) :
    ∃ e, Writer.codeEscape c = '\\' :: 'u' :: e ∧ escape? ('u' :: e ++ text) = some (.more [c] text) := by
  refine ⟨_, rfl, ?_⟩
  change codePoint? 4 ((Writer.codeEscape c).drop 2 ++ text) = _
  have hlength : ((Writer.codeEscape c).drop 2).length = 4 := rfl
  rw [codePoint?, if_neg (by rw [List.length_append]; omega), List.take_left' hlength,
    List.drop_left' hlength, hexNumber?_codeEscape h, Option.map_some]

def escapeLetters : List Char := ['b', 't', 'n', 'f', 'r', '\\', 'u']

/-- A character stands for itself, or an escape stands for it. -/
theorem escape_cases {c : Char} (multiline : Bool) (text : Text) :
    (Writer.escape multiline c = [c] ∧ c ≠ '\\' ∧
      (isControl c = false ∨ multiline = true ∧ c = '\n')) ∨
    ∃ letter e, Writer.escape multiline c = '\\' :: letter :: e ∧ letter ∈ escapeLetters ∧
      escape? (letter :: e ++ text) = some (.more [c] text) := by
  unfold Writer.escape
  split
  · subst c
    exact .inr ⟨'b', [], rfl, by simp [escapeLetters], rfl⟩
  split
  · subst c
    exact .inr ⟨'t', [], rfl, by simp [escapeLetters], rfl⟩
  split
  · subst c
    cases multiline with
    | false => exact .inr ⟨'n', [], rfl, by simp [escapeLetters], rfl⟩
    | true => exact .inl ⟨rfl, by simp, .inr ⟨rfl, rfl⟩⟩
  split
  · subst c
    exact .inr ⟨'f', [], rfl, by simp [escapeLetters], rfl⟩
  split
  · subst c
    exact .inr ⟨'r', [], rfl, by simp [escapeLetters], rfl⟩
  split
  · subst c
    exact .inr ⟨'\\', [], rfl, by simp [escapeLetters], rfl⟩
  split
  · obtain ⟨e, he, hread⟩ := escape?_codeEscape ‹_› text
    exact .inr ⟨'u', e, he, by simp [escapeLetters], hread⟩
  · exact .inl ⟨rfl, ‹_›, .inl (Bool.eq_false_iff.2 ‹_›)⟩

theorem length_escape_pos (multiline : Bool) (c : Char) : 0 < (Writer.escape multiline c).length := by
  rcases escape_cases (c := c) multiline [] with ⟨he, -⟩ | ⟨letter, e, he, -⟩
  · rw [he]
    exact Nat.one_pos
  · rw [he]
    exact Nat.succ_pos _

/-! ## Strings on one line -/

theorem basic?_escape {c : Char} (hc : c ≠ '"') (text : Text) :
    basic? (Writer.escape false c ++ text) = some (.more [c] text) := by
  rcases escape_cases false text with ⟨he, hslash, hplain⟩ | ⟨letter, e, he, -, hread⟩
  · rw [he, List.singleton_append, basic?, if_neg hc, if_neg hslash, hplain.resolve_right (by simp)]
    rfl
  · rw [he]
    exact hread

theorem reads_basic (s rest : Text) : Reads basic? (Writer.escaped false 0 s ++ '"' :: rest) s rest := by
  induction s with
  | nil => exact .close rfl
  | cons c s ih =>
    by_cases hc : c = '"'
    · subst hc
      change Reads basic? ('\\' :: '"' :: (Writer.escaped false 0 s ++ '"' :: rest)) _ _
      exact .char rfl (Nat.lt_succ_of_lt (Nat.lt_succ_self _)) ih
    · have hlength := length_escape_pos false c
      rw [Writer.escaped, if_neg hc, List.append_assoc]
      exact .char (basic?_escape hc _) (by simp only [List.length_append]; omega) ih

theorem reads_literal {s : Text} (h : ∀ c ∈ s, c ≠ '\'' ∧ isControl c = false) (rest : Text) :
    Reads literal? (s ++ '\'' :: rest) s rest := by
  induction s with
  | nil => exact .close rfl
  | cons c s ih =>
    have hc := h c List.mem_cons_self
    have hpiece : literal? (c :: (s ++ '\'' :: rest)) = some (.more [c] (s ++ '\'' :: rest)) := by
      rw [literal?, if_neg hc.1, hc.2]
      rfl
    exact .char hpiece (by simp) (ih fun d hd => h d (List.mem_cons_of_mem c hd))

/-! ## Strings of several lines -/

theorem takeWhile_replicate {quote : Char} {n : Nat} (h : ∀ c ∈ text.head?, c ≠ quote) :
    (List.replicate n quote ++ text).takeWhile (· == quote) = List.replicate n quote :=
  (Text.takeWhile_append_dropWhile (by simp) (by simpa using h)).1

section Quotes

variable {quote : Char} (hpiece : ∀ text, piece? (quote :: text) = some (quotes quote (quote :: text)))
include hpiece

/-- Up to two quotes in a row stand for themselves. -/
theorem Reads.row (hread : Reads piece? text s rest) (hhead : ∀ c ∈ text.head?, c ≠ quote) :
    ∀ {row : Nat}, row ≤ 2 →
      Reads piece? (List.replicate row quote ++ text) (List.replicate row quote ++ s) rest
  | 0, _ => hread
  | row + 1, hrow => by
    have hrun := takeWhile_replicate (n := row + 1) hhead
    rw [List.replicate_succ, List.cons_append] at hrun ⊢
    have hnext : piece? (quote :: (List.replicate row quote ++ text)) =
        some (.more [quote] (List.replicate row quote ++ text)) := by
      rw [hpiece, Quote.quotes, hrun, ← List.replicate_succ, List.length_replicate, if_pos (by omega)]
      rfl
    exact .char hnext (Nat.lt_succ_self _) (hread.row hhead (by omega))

/-- Three quotes close the string, with up to two more in front of them. -/
theorem Reads.closing (hrest : ∀ c ∈ rest.head?, c ≠ quote) {row : Nat} (hrow : row ≤ 2) :
    Reads piece? (List.replicate row quote ++ ([quote, quote, quote] ++ rest)) (List.replicate row quote)
      rest := by
  have hall : List.replicate row quote ++ ([quote, quote, quote] ++ rest) =
      List.replicate (row + 3) quote ++ rest := by
    rw [← List.replicate_append_replicate, List.append_assoc]
    rfl
  have hrun := takeWhile_replicate (n := row + 3) hrest
  have hdrop : (List.replicate (row + 3) quote ++ rest).drop (row + 3) = rest :=
    List.drop_left' List.length_replicate
  rw [hall]
  rw [List.replicate_succ, List.cons_append] at hrun hdrop ⊢
  refine .close ?_
  rw [hpiece, Quote.quotes, hrun, ← List.replicate_succ, List.length_replicate, if_neg (by omega),
    show min (row + 2 + 1 - 3) 2 = row by omega, show min (row + 2 + 1) 5 = row + 3 by omega, hdrop]

end Quotes

/-- No escape that is written stands for a line break that is left out. -/
theorem continuation?_escape {letter : Char} (h : letter ∈ escapeLetters) (text : Text) :
    continuation? (letter :: text) = none := by
  simp only [escapeLetters, List.mem_cons, List.not_mem_nil, or_false] at h
  rcases h with rfl | rfl | rfl | rfl | rfl | rfl | rfl <;> rfl

theorem line?_of_plain {c : Char} (hplain : isControl c = false) (text : Text) :
    line? (c :: text) = some (.more [c] text) := by
  unfold line?
  split
  · cases ‹c :: text = _›
    cases hplain
  · cases ‹c :: text = _›
    cases hplain
  · cases ‹c :: text = _›
    rw [hplain]
    rfl
  · cases ‹c :: text = []›

theorem multilineBasic?_escape {c : Char} (hc : c ≠ '"') (text : Text) :
    multilineBasic? (Writer.escape true c ++ text) = some (.more [c] text) := by
  rcases escape_cases true text with ⟨he, hslash, hplain⟩ | ⟨letter, e, he, hletter, hread⟩
  · rw [he, List.singleton_append, multilineBasic?, if_neg hc, if_neg hslash]
    rcases hplain with hplain | ⟨-, rfl⟩
    · exact line?_of_plain hplain text
    · rfl
  · rw [he]
    change (continuation? (letter :: (e ++ text))).or (escape? (letter :: e ++ text)) = _
    rw [continuation?_escape hletter, Option.none_or, hread]

theorem head?_escape {c : Char} (hc : c ≠ '"') (multiline : Bool) (text : Text) :
    ∀ d ∈ (Writer.escape multiline c ++ text).head?, d ≠ '"' ∧ (c ≠ '\n' → isControl d = false) := by
  rcases escape_cases (c := c) multiline [] with ⟨he, -, hplain⟩ | ⟨letter, e, he, -⟩
  · rw [he]
    rintro d ⟨⟩
    exact ⟨hc, fun hline => hplain.resolve_right fun h => hline h.2⟩
  · rw [he]
    rintro d ⟨⟩
    exact ⟨by simp, fun _ => rfl⟩

/-- What is written after a row of quotes is read with this row in front. -/
theorem reads_multilineBasic {rest : Text} (hrest : ∀ c ∈ rest.head?, c ≠ '"') (s : Text) : ∀ row : Nat,
    row ≤ 2 → Reads multilineBasic?
      (List.replicate row '"' ++ (Writer.escaped true row s ++ (['"', '"', '"'] ++ rest)))
      (List.replicate row '"' ++ s) rest := by
  have hpiece : ∀ text, multilineBasic? ('"' :: text) = some (quotes '"' ('"' :: text)) := fun _ => rfl
  induction s with
  | nil =>
    intro row hrow
    rw [List.append_nil]
    exact Reads.closing hpiece hrest hrow
  | cons c s ih =>
    intro row hrow
    by_cases hc : c = '"'
    · subst hc
      rw [Writer.escaped, if_pos rfl, if_pos rfl]
      by_cases hlt : row < 2
      · -- the quote is one more of the row
        have hnext := ih (row + 1) hlt
        rw [List.replicate_succ', List.append_assoc, List.append_assoc] at hnext
        rwa [if_pos hlt]
      · rw [if_neg hlt]
        refine Reads.row hpiece ?_ (by simp) hrow
        exact .char rfl (Nat.lt_succ_of_lt (Nat.lt_succ_self _)) (ih 0 (Nat.zero_le 2))
    · rw [Writer.escaped, if_neg hc, List.append_assoc]
      refine Reads.row hpiece ?_ (fun d hd => (head?_escape hc true _ d hd).1) hrow
      have hlength := length_escape_pos true c
      exact .char (multilineBasic?_escape hc _) (by simp only [List.length_append]; omega) (ih 0 (Nat.zero_le 2))

/-- A text whose rows of quotes are no longer than two is read as it stands. -/
theorem reads_multilineLiteral {rest : Text} (hrest : ∀ c ∈ rest.head?, c ≠ '\'') {s : Text}
    (hplain : ∀ c ∈ s, isControl c = false ∨ c = '\n') : ∀ row : Nat, row + (Text.runs '\'' s).1 ≤ 2 →
      (Text.runs '\'' s).2 ≤ 2 → Reads multilineLiteral?
        (List.replicate row '\'' ++ (s ++ (['\'', '\'', '\''] ++ rest))) (List.replicate row '\'' ++ s) rest := by
  have hpiece : ∀ text, multilineLiteral? ('\'' :: text) = some (quotes '\'' ('\'' :: text)) := fun _ => rfl
  induction s with
  | nil =>
    intro row hrow _
    rw [List.append_nil]
    exact Reads.closing hpiece hrest hrow
  | cons c s ih =>
    intro row hrow hlongest
    have ih := ih fun d hd => hplain d (List.mem_cons_of_mem c hd)
    rw [Text.runs_cons] at hrow hlongest
    by_cases hc : c = '\''
    · -- the quote is one more of the row
      subst hc
      simp only [if_true] at hrow hlongest
      have hnext := ih (row + 1) (by omega) (by omega)
      rwa [List.replicate_succ', List.append_assoc, List.append_assoc] at hnext
    · simp only [if_neg hc] at hrow hlongest
      have hfront := Text.runs_le '\'' s
      have hread := ih 0 (by omega) hlongest
      refine Reads.row hpiece (.char ?_ (Nat.lt_succ_self _) hread) (by rintro d ⟨⟩; exact hc) hrow
      rw [List.cons_append, multilineLiteral?, if_neg hc]
      rcases hplain c List.mem_cons_self with hplain | rfl
      · exact line?_of_plain hplain _
      · rfl

/-! ## Strings and their forms -/

theorem isControl_of_hasControl {s : Text} (h : Writer.hasControl s = false) :
    ∀ c ∈ s, isControl c = false ∨ c = '\n' := by
  intro c hc
  simpa [Decidable.imp_iff_not_or] using List.any_eq_false.1 h c hc

/-- A literal string on one line has no quote and no control character. -/
theorem plain_of_literal {s : Text} (h : Writer.form s = .literal) :
    ∀ c ∈ s, c ≠ '\'' ∧ isControl c = false := by
  unfold Writer.form at h
  split at h
  · cases h
  split at h
  · rename_i hplain
    simp only [Bool.and_eq_true, Bool.not_eq_true', beq_iff_eq] at hplain
    obtain ⟨⟨hcontrol, hquote⟩, hbreak⟩ := hplain
    intro c hc
    refine ⟨?_, (isControl_of_hasControl hcontrol c hc).resolve_right ?_⟩
    · rintro rfl
      exact Text.longestRun_eq_zero_iff.1 hquote hc
    · rintro rfl
      simp [hc] at hbreak
  · split at h
    · cases h
    split at h
    · cases h
    split at h <;> cases h

theorem plain_of_multilineLiteral {s : Text} (h : Writer.form s = .multilineLiteral) :
    (∀ c ∈ s, isControl c = false ∨ c = '\n') ∧ (Text.runs '\'' s).2 ≤ 2 := by
  unfold Writer.form at h
  split at h
  · cases h
  split at h
  · cases h
  split at h
  · cases h
  split at h
  · rename_i hplain
    simp only [Bool.and_eq_true, Bool.not_eq_true', decide_eq_true_eq] at hplain
    exact ⟨isControl_of_hasControl hplain.1, hplain.2⟩
  · split at h <;> cases h

theorem plain_of_keyForm {key : Text} (h : Writer.keyForm key = .literal) :
    ∀ c ∈ key, c ≠ '\'' ∧ isControl c = false := by
  unfold Writer.keyForm at h
  split at h
  · cases h
  split at h
  · rename_i hplain
    simp only [Bool.and_eq_true, Bool.not_eq_true'] at hplain
    intro c hc
    refine ⟨?_, by simpa using List.any_eq_false.1 hplain.1 c hc⟩
    rintro rfl
    simp [hc] at hplain
  · cases h

theorem keyForm_cases (key : Text) : Writer.keyForm key = .basic ∨ Writer.keyForm key = .literal := by
  unfold Writer.keyForm
  split
  · exact .inl rfl
  · split
    · exact .inr rfl
    · exact .inl rfl

theorem inForm_basic (s rest : Text) :
    Writer.inForm .basic s ++ rest = '"' :: (Writer.escaped false 0 s ++ '"' :: rest) := by
  rw [Writer.inForm, List.cons_append, List.cons_append, List.append_assoc]
  rfl

theorem inForm_literal (s rest : Text) : Writer.inForm .literal s ++ rest = '\'' :: (s ++ '\'' :: rest) := by
  rw [Writer.inForm, List.cons_append, List.cons_append, List.append_assoc]
  rfl

theorem singleLine?_basic (s rest : Text) : singleLine? (Writer.inForm .basic s ++ rest) = some (s, rest) := by
  rw [inForm_basic]
  exact (reads_basic s rest).body?

theorem singleLine?_literal {s : Text} (h : ∀ c ∈ s, c ≠ '\'' ∧ isControl c = false) (rest : Text) :
    singleLine? (Writer.inForm .literal s ++ rest) = some (s, rest) := by
  rw [inForm_literal]
  exact (reads_literal h rest).body?

/-- A quoted key is read back, whatever follows. -/
theorem singleLine?_keyForm (key rest : Text) :
    singleLine? (Writer.inForm (Writer.keyForm key) key ++ rest) = some (key, rest) := by
  rcases keyForm_cases key with h | h
  · rw [h, singleLine?_basic]
  · rw [h, singleLine?_literal (plain_of_keyForm h)]

/-- The break after the opening quotes is left out, and there is none to leave out if none was written. -/
theorem afterBreak?_leadingBreak (s text : Text) (h : '\n' ∉ s → ∀ c ∈ text.head?, isControl c = false) :
    (afterBreak? (Writer.leadingBreak s ++ text)).getD (Writer.leadingBreak s ++ text) = text := by
  unfold Writer.leadingBreak
  split
  · rfl
  · have hhead := h (by simpa using ‹¬s.contains '\n' = true›)
    have hnone : afterBreak? text = none := by
      unfold afterBreak?
      split
      · cases hhead _ rfl
      · cases hhead _ rfl
      · rfl
    rw [List.nil_append, hnone]
    rfl

/-- Quotes that are not three in a row begin a string on one line. -/
theorem string?_of_not_triple {quote : Char} {text : Text} (h : ∀ rest, text ≠ quote :: quote :: rest) :
    string? (quote :: text) = singleLine? (quote :: text) := by
  unfold string?
  split
  · cases ‹quote :: text = _›
    exact absurd rfl (h _)
  · cases ‹quote :: text = _›
    exact absurd rfl (h _)
  · rfl

theorem string?_basic (s : Text) {rest : Text} (hrest : ∀ c ∈ rest.head?, c ≠ '"') :
    string? (Writer.inForm .basic s ++ rest) = some (s, rest) := by
  rw [← singleLine?_basic s rest, inForm_basic]
  refine string?_of_not_triple fun after he => ?_
  cases s with
  | nil =>
    obtain ⟨-, hrow⟩ := List.cons.inj he
    exact hrest '"' (hrow ▸ rfl) rfl
  | cons c s =>
    rw [Writer.escaped] at he
    by_cases hc : c = '"'
    · rw [if_pos hc] at he
      cases he
    · rw [if_neg hc, List.append_assoc] at he
      exact (head?_escape hc false _ '"' (by rw [he]; rfl)).1 rfl

theorem string?_literal {s : Text} (h : ∀ c ∈ s, c ≠ '\'' ∧ isControl c = false) {rest : Text}
    (hrest : ∀ c ∈ rest.head?, c ≠ '\'') : string? (Writer.inForm .literal s ++ rest) = some (s, rest) := by
  rw [← singleLine?_literal h rest, inForm_literal]
  refine string?_of_not_triple fun after he => ?_
  cases s with
  | nil =>
    obtain ⟨-, hrow⟩ := List.cons.inj he
    exact hrest '\'' (hrow ▸ rfl) rfl
  | cons c s =>
    obtain ⟨hc, -⟩ := List.cons.inj he
    exact (h c List.mem_cons_self).1 hc

theorem string?_multilineBasic (s : Text) {rest : Text} (hrest : ∀ c ∈ rest.head?, c ≠ '"') :
    string? (Writer.inForm .multilineBasic s ++ rest) = some (s, rest) := by
  have hbody := reads_multilineBasic hrest s 0 (Nat.zero_le 2)
  have hbreak := afterBreak?_leadingBreak s (Writer.escaped true 0 s ++ (['"', '"', '"'] ++ rest))
    fun hs c hc => by
      cases s with
      | nil =>
        cases hc
        rfl
      | cons d s =>
        rw [Writer.escaped] at hc
        by_cases hd : d = '"'
        · rw [if_pos hd] at hc
          cases hc
          rfl
        · rw [if_neg hd, List.append_assoc] at hc
          exact (head?_escape hd true _ c hc).2 fun hline => hs (hline ▸ List.mem_cons_self)
  simp only [Writer.inForm, List.append_assoc]
  exact (congrArg (body? multilineBasic?) hbreak).trans hbody.body?

theorem string?_multilineLiteral {s : Text} (hplain : ∀ c ∈ s, isControl c = false ∨ c = '\n')
    (hrows : (Text.runs '\'' s).2 ≤ 2) {rest : Text} (hrest : ∀ c ∈ rest.head?, c ≠ '\'') :
    string? (Writer.inForm .multilineLiteral s ++ rest) = some (s, rest) := by
  have hfront := Text.runs_le '\'' s
  have hbody := reads_multilineLiteral hrest hplain 0 (by omega) hrows
  have hbreak := afterBreak?_leadingBreak s (s ++ (['\'', '\'', '\''] ++ rest)) fun hs c hc => by
      cases s with
      | nil =>
        cases hc
        rfl
      | cons d s =>
        cases hc
        exact (hplain c List.mem_cons_self).resolve_right fun hline => hs (hline ▸ List.mem_cons_self)
  simp only [Writer.inForm, List.append_assoc]
  exact (congrArg (body? multilineLiteral?) hbreak).trans hbody.body?

/-- **A string is read back**, in whatever form it is written, and what follows it is left. -/
theorem string?_string (s : Text) {rest : Text} (hrest : ∀ c ∈ rest.head?, c ≠ '"' ∧ c ≠ '\'') :
    string? (Writer.string s ++ rest) = some (s, rest) := by
  have hdouble : ∀ c ∈ rest.head?, c ≠ '"' := fun c hc => (hrest c hc).1
  have hsingle : ∀ c ∈ rest.head?, c ≠ '\'' := fun c hc => (hrest c hc).2
  rw [Writer.string]
  cases hform : Writer.form s with
  | basic => exact string?_basic s hdouble
  | literal => exact string?_literal (plain_of_literal hform) hsingle
  | multilineBasic => exact string?_multilineBasic s hdouble
  | multilineLiteral =>
    obtain ⟨hplain, hrows⟩ := plain_of_multilineLiteral hform
    exact string?_multilineLiteral hplain hrows hsingle

/-- Of four quotes in a row the third is escaped. -/
example : Writer.string "\"\"\"\"\n'''".toList = "\"\"\"\n\"\"\\\"\"\n'''\"\"\"".toList := by
  decide

end Quote
end Shorthand.Toml
