import Shorthand.Proofs.Text

/-! # Numbers in a text

A text is cut into its runs of `$` and what stands between them. Numbering writes the padded number in the
place of each run and leaves the rest (`number_text`). The larger of two numbers never makes a run shorter,
so two numbered texts of the same length have their runs in the same places, and the first run tells the
numbers apart: main statement `number_injective`. -/

namespace Shorthand.Text.Numbering

/-! ## Padded numbers -/

theorem length_padded (width n : Nat) : (padded width n).length = max width (ofNat n).length := by
  rw [padded, List.length_append, List.length_replicate]
  omega

theorem length_ofNat_mono {m n : Nat} (h : m ≤ n) : (ofNat m).length ≤ (ofNat n).length := by
  have hpos : 0 < (ofNat n).length := List.length_pos_iff.2 Nat.toDigits_ne_nil
  have hn : n < 10 ^ (ofNat n).length :=
    (Nat.length_toDigits_le_iff (by decide) hpos).1 (Nat.le_refl _)
  exact (Nat.length_toDigits_le_iff (by decide) hpos).2 (Nat.lt_of_le_of_lt h hn)

theorem length_padded_mono (width : Nat) {m n : Nat} (h : m ≤ n) :
    (padded width m).length ≤ (padded width n).length := by
  have hle := length_ofNat_mono h
  rw [length_padded, length_padded]
  omega

/-- Zeros in front do not change the number. -/
theorem toNat_padded (width n : Nat) : toNat (padded width n) = n := by
  rw [padded, toNat, Nat.ofDigitChars_append, Nat.ofDigitChars_replicate_zero, Nat.mul_zero]
  exact toNat_ofNat n

theorem padded_injective {width m n : Nat} (h : padded width m = padded width n) : m = n := by
  rw [← toNat_padded width m, h, toNat_padded]

/-! ## Runs of counters -/

/-- A text cut into runs of counters, each with the text in front of it and its width, and the text behind
the last run. -/
structure Cut where
  runs : List (Text × Nat) := []
  rest : Text := []

namespace Cut

def text (write : Nat → Text) (c : Cut) : Text :=
  c.runs.flatMap (fun run => run.1 ++ write run.2) ++ c.rest

/-- The runs hold all counters, and none of them could be longer. -/
structure Maximal (c : Cut) : Prop where
  gap : ∀ run ∈ c.runs, '$' ∉ run.1
  rest : '$' ∉ c.rest
  width_pos : ∀ run ∈ c.runs, 0 < run.2
  apart : ∀ run ∈ c.runs.tail, run.1 ≠ []

def cons (c : Char) : Cut → Cut
  | ⟨[], rest⟩ => if c = '$' then ⟨[([], 1)], rest⟩ else ⟨[], c :: rest⟩
  | ⟨(gap, width) :: runs, rest⟩ =>
    if c ≠ '$' then ⟨(c :: gap, width) :: runs, rest⟩
    else if gap = [] then ⟨([], width + 1) :: runs, rest⟩
    else ⟨([], 1) :: (gap, width) :: runs, rest⟩

end Cut

def cut (text : Text) : Cut := text.foldr Cut.cons {}

def counters (width : Nat) : Text := List.replicate width '$'

theorem Cut.text_cons_run (write : Nat → Text) (gap : Text) (width : Nat) (runs : List (Text × Nat))
    (rest : Text) :
    Cut.text write ⟨(gap, width) :: runs, rest⟩ = gap ++ (write width ++ Cut.text write ⟨runs, rest⟩) := by
  rw [Cut.text, Cut.text, List.flatMap_cons, List.append_assoc, List.append_assoc]

theorem Cut.Maximal.tail {gap : Text} {width : Nat} {runs : List (Text × Nat)} {rest : Text}
    (h : Cut.Maximal ⟨(gap, width) :: runs, rest⟩) : Cut.Maximal ⟨runs, rest⟩ where
  gap := (List.forall_mem_cons.1 h.gap).2
  rest := h.rest
  width_pos := (List.forall_mem_cons.1 h.width_pos).2
  apart run hrun := h.apart run (List.mem_of_mem_tail hrun)

theorem Cut.text_cons (c : Char) (k : Cut) : (k.cons c).text counters = c :: k.text counters := by
  obtain ⟨runs, rest⟩ := k
  cases runs with
  | nil =>
    rw [Cut.cons]
    split
    · rename_i hc
      rw [hc]
      rfl
    · rfl
  | cons run runs =>
    obtain ⟨gap, width⟩ := run
    rw [Cut.cons]
    split
    · rfl
    rename_i hc
    obtain rfl : c = '$' := Decidable.not_not.1 hc
    split
    · rename_i hgap
      rw [hgap]
      rfl
    · rfl

theorem Cut.Maximal.cons {k : Cut} (h : k.Maximal) (c : Char) : (k.cons c).Maximal := by
  obtain ⟨runs, rest⟩ := k
  cases runs with
  | nil =>
    rw [Cut.cons]
    split
    · exact {
        gap := List.forall_mem_singleton.2 List.not_mem_nil
        rest := h.rest
        width_pos := List.forall_mem_singleton.2 Nat.one_pos
        apart := nofun }
    · rename_i hc
      exact { h with rest := mt List.mem_cons.1 (not_or.2 ⟨Ne.symm hc, h.rest⟩) }
  | cons run runs =>
    obtain ⟨gap, width⟩ := run
    obtain ⟨hgap, hgaps⟩ := List.forall_mem_cons.1 h.gap
    obtain ⟨hwidth, hwidths⟩ := List.forall_mem_cons.1 h.width_pos
    rw [Cut.cons]
    split
    · rename_i hc
      exact { h with
        gap := List.forall_mem_cons.2 ⟨mt List.mem_cons.1 (not_or.2 ⟨Ne.symm hc, hgap⟩), hgaps⟩
        width_pos := List.forall_mem_cons.2 ⟨hwidth, hwidths⟩ }
    split
    · exact { h with
        gap := List.forall_mem_cons.2 ⟨List.not_mem_nil, hgaps⟩
        width_pos := List.forall_mem_cons.2 ⟨Nat.succ_pos width, hwidths⟩ }
    · -- the run that was the first now has another one before it
      rename_i hne
      exact { h with
        gap := List.forall_mem_cons.2 ⟨List.not_mem_nil, h.gap⟩
        width_pos := List.forall_mem_cons.2 ⟨Nat.one_pos, h.width_pos⟩
        apart := List.forall_mem_cons.2 ⟨hne, h.apart⟩ }

theorem maximal_cut : ∀ text : Text, (cut text).Maximal
  | [] => { gap := nofun, rest := List.not_mem_nil, width_pos := nofun, apart := nofun }
  | c :: text => (maximal_cut text).cons c

theorem text_cut : ∀ text : Text, (cut text).text counters = text
  | [] => rfl
  | c :: text => (Cut.text_cons c (cut text)).trans (congrArg (c :: ·) (text_cut text))

/-- A text with a counter has a run. -/
theorem runs_cut_ne_nil {text : Text} (h : '$' ∈ text) : (cut text).runs ≠ [] := by
  intro hnil
  have htext := text_cut text
  rw [Cut.text, hnil, List.flatMap_nil, List.nil_append] at htext
  rw [← htext] at h
  exact (maximal_cut text).rest h

/-- What stands behind a run does not begin with a counter. -/
theorem Cut.Maximal.head?_text {gap : Text} {width : Nat} {runs : List (Text × Nat)} {rest : Text}
    (h : Cut.Maximal ⟨(gap, width) :: runs, rest⟩) :
    '$' ∉ (Cut.text counters ⟨runs, rest⟩).head? := by
  intro hhead
  cases runs with
  | nil => exact h.rest (List.mem_of_head? hhead)
  | cons run runs =>
    obtain ⟨next, w⟩ := run
    obtain ⟨c, next, rfl⟩ := List.exists_cons_of_ne_nil (h.apart _ List.mem_cons_self)
    cases hhead
    exact h.gap _ (List.mem_cons_of_mem _ List.mem_cons_self) List.mem_cons_self

/-! ## Widths of runs -/

def Cut.front : Cut → Nat
  | ⟨([], width) :: _, _⟩ => width
  | _ => 0

def Cut.widest (k : Cut) : Nat := k.runs.foldr (fun run widest => max widest run.2) 0

theorem front_cons (c : Char) (k : Cut) : (k.cons c).front = if c = '$' then k.front + 1 else 0 := by
  obtain ⟨_ | ⟨⟨_ | ⟨d, gap⟩, width⟩, runs⟩, rest⟩ := k <;>
    by_cases hc : c = '$' <;> simp [Cut.cons, Cut.front, hc]

theorem widest_cons (c : Char) (k : Cut) :
    (k.cons c).widest = if c = '$' then max k.widest (k.front + 1) else k.widest := by
  have hwiden : ∀ others width : Nat, max (max others width) (width + 1) = max others (width + 1) := by omega
  obtain ⟨_ | ⟨⟨_ | ⟨d, gap⟩, width⟩, runs⟩, rest⟩ := k <;>
    by_cases hc : c = '$' <;> simp [Cut.cons, Cut.front, Cut.widest, hc, hwiden]

theorem runs_eq (text : Text) : Text.runs '$' text = ((cut text).front, (cut text).widest) := by
  induction text with
  | nil => rfl
  | cons c text ih =>
    rw [runs_cons, ih, show cut (c :: text) = (cut text).cons c from rfl, front_cons, widest_cons]
    split <;> rfl

theorem widest_le_iff {runs : List (Text × Nat)} {rest : Text} {n : Nat} :
    Cut.widest ⟨runs, rest⟩ ≤ n ↔ ∀ run ∈ runs, run.2 ≤ n := by
  induction runs with
  | nil => simp [Cut.widest]
  | cons run runs ih =>
    rw [List.forall_mem_cons, ← ih, Cut.widest, List.foldr_cons, Nat.max_le, and_comm]
    rfl

/-- A number can be padded to all runs when it can be padded to each. -/
theorem paddable_iff (text : Text) : Paddable text ↔ ∀ run ∈ (cut text).runs, run.2 ≤ maxWidth := by
  rw [Paddable, longestRun, runs_eq]
  exact widest_le_iff

/-! ## Numbering run by run -/

theorem number_append (index : Nat) (v : Text) : ∀ {u : Text}, '$' ∉ u →
    number index (u ++ v) = u ++ number index v
  | [], _ => rfl
  | c :: u, h => by
    obtain ⟨hc, hu⟩ := not_or.1 (mt List.mem_cons.2 h)
    have hrest := number_append index v hu
    rw [number] at hrest
    rw [List.cons_append, number, List.foldr_cons, Progress.cons, if_neg (Ne.symm hc)]
    exact congrArg (c :: ·) hrest

theorem foldr_counters (n width : Nat) (v : Text) :
    (counters width ++ v).foldr (Progress.cons n) ⟨0, []⟩ =
      ⟨(v.foldr (Progress.cons n) ⟨0, []⟩).run + width, (v.foldr (Progress.cons n) ⟨0, []⟩).after⟩ := by
  induction width with
  | zero => rfl
  | succ width ih =>
    rw [counters, List.replicate_succ, List.cons_append, List.foldr_cons]
    rw [counters] at ih
    rw [ih, Progress.cons, if_pos rfl]
    rfl

theorem run_eq_zero (n : Nat) {v : Text} (h : '$' ∉ v.head?) :
    (v.foldr (Progress.cons n) ⟨0, []⟩).run = 0 := by
  cases v with
  | nil => rfl
  | cons c v =>
    have hc : c ≠ '$' := fun heq => h (heq ▸ rfl)
    rw [List.foldr_cons, Progress.cons, if_neg hc]

/-- A run that could not be longer is replaced by the number. -/
theorem number_counters (index : Nat) {width : Nat} {v : Text} (hwidth : 0 < width)
    (h : '$' ∉ v.head?) :
    number index (counters width ++ v) = padded width (index + 1) ++ number index v := by
  have hrun := run_eq_zero (index + 1) h
  rw [number, number, foldr_counters, hrun, Progress.text, Progress.text, hrun, Nat.zero_add,
    if_neg (Nat.ne_of_gt hwidth), if_pos rfl]

/-- Numbering replaces each run by the number, padded to the width of the run, and leaves the rest. -/
theorem number_text (index : Nat) {k : Cut} (h : k.Maximal) :
    number index (k.text counters) = k.text (padded · (index + 1)) := by
  obtain ⟨runs, rest⟩ := k
  induction runs with
  | nil => exact number_eq_self index h.rest
  | cons run runs ih =>
    obtain ⟨gap, width⟩ := run
    rw [Cut.text_cons_run, Cut.text_cons_run, number_append index _ (h.gap _ List.mem_cons_self),
      number_counters index (h.width_pos _ List.mem_cons_self) h.head?_text, ih h.tail]

theorem number_eq_text (index : Nat) (text : Text) :
    number index text = (cut text).text (padded · (index + 1)) := by
  rw [← number_text index (maximal_cut text), text_cut]

/-! ## Telling numbers apart -/

/-- What is never shorter for a run is never shorter for a text. -/
theorem length_text_le {f g : Nat → Text} (h : ∀ width, (f width).length ≤ (g width).length) (k : Cut) :
    (k.text f).length ≤ (k.text g).length := by
  obtain ⟨runs, rest⟩ := k
  induction runs with
  | nil => exact Nat.le_refl _
  | cons run runs ih =>
    obtain ⟨gap, width⟩ := run
    have hfirst := h width
    rw [Cut.text_cons_run, Cut.text_cons_run]
    simp only [List.length_append]
    omega

theorem eq_of_text_padded {k : Cut} (hruns : k.runs ≠ []) {m n : Nat} (hle : m ≤ n)
    (h : k.text (padded · m) = k.text (padded · n)) : m = n := by
  obtain ⟨runs, rest⟩ := k
  obtain ⟨⟨gap, width⟩, runs, rfl⟩ := List.exists_cons_of_ne_nil hruns
  rw [Cut.text_cons_run, Cut.text_cons_run] at h
  have htail := List.append_cancel_left h
  -- no part is longer with the smaller number, so each is as long with both
  have hlength : (padded width m).length = (padded width n).length := by
    have hall := congrArg List.length htail
    have hfirst := length_padded_mono width hle
    have hrest := length_text_le (fun width => length_padded_mono width hle) ⟨runs, rest⟩
    rw [List.length_append, List.length_append] at hall
    omega
  exact padded_injective (List.append_inj htail hlength).1

/-- **Two numbers never give a text with a counter the same form.** -/
theorem number_injective {text : Text} (htext : '$' ∈ text) {i j : Nat}
    (h : number i text = number j text) : i = j := by
  rw [number_eq_text, number_eq_text] at h
  have hruns := runs_cut_ne_nil htext
  rcases Nat.le_total i j with hle | hle
  · exact Nat.succ.inj (eq_of_text_padded hruns (Nat.succ_le_succ hle) h)
  · exact (Nat.succ.inj (eq_of_text_padded hruns (Nat.succ_le_succ hle) h.symm)).symm

/-- No number is shorter than the run that it replaces. -/
theorem length_le_number (index : Nat) (text : Text) : text.length ≤ (number index text).length := by
  have hrun : ∀ width, (counters width).length ≤ (padded width (index + 1)).length := by
    intro width
    rw [counters, List.length_replicate, length_padded]
    exact Nat.le_max_left _ _
  have hle := length_text_le hrun (cut text)
  rwa [text_cut, ← number_eq_text] at hle

end Shorthand.Text.Numbering
