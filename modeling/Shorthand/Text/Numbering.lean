import Shorthand.Text

/-!
Numbering of copies. Each run of `$` in a text stands for the number of the copy, written in decimal
with at least as many digits as the run has `$`. A run can be so wide that no number is padded to it.
Main statement: no `$` is left.
-/

namespace Shorthand.Text.Numbering

/-- The number in decimal, with zeros in front up to the given width. -/
def padded (width n : Nat) : Text :=
  let digits := ofNat n
  List.replicate (width - digits.length) '0' ++ digits

/-- What has been read from the right: a run of `$` not yet written out, and the text after it. -/
structure Progress where
  run : Nat
  after : Text

/-- Writes the pending run out. -/
def Progress.text (number : Nat) (p : Progress) : Text :=
  if p.run = 0 then p.after else padded p.run number ++ p.after

def Progress.cons (number : Nat) (c : Char) (p : Progress) : Progress :=
  if c = '$' then ⟨p.run + 1, p.after⟩ else ⟨0, c :: p.text number⟩

/-- Replaces each run of `$` by the number of the copy with the given index; the first copy, of
index 0, has number 1. -/
def number (index : Nat) (text : Text) : Text :=
  (text.foldr (Progress.cons (index + 1)) ⟨0, []⟩).text (index + 1)

/-- No run of `$` is wider than a number can be padded. -/
def Paddable (text : Text) : Prop := text.longestRun '$' ≤ maxWidth

instance (text : Text) : Decidable (Paddable text) := Nat.decLe _ _

/-- The numbered text, if numbers can be padded to its runs. -/
def number? (index : Nat) (text : Text) : Option Text :=
  if Paddable text then some (number index text) else none

theorem not_mem_padded (width n : Nat) : '$' ∉ padded width n := by
  intro h
  simp only [padded, ofNat, List.mem_append, List.mem_replicate] at h
  rcases h with ⟨_, h⟩ | h
  · exact absurd h (by decide)
  · have := Nat.isDigit_of_mem_toDigits (by omega) (by omega) h
    exact absurd this (by decide)

theorem not_mem_text {n : Nat} {p : Progress} (h : '$' ∉ p.after) : '$' ∉ p.text n := by
  unfold Progress.text
  split
  · exact h
  · simp [h, not_mem_padded]

theorem not_mem_after (n : Nat) (text : Text) :
    '$' ∉ (text.foldr (Progress.cons n) ⟨0, []⟩).after := by
  induction text with
  | nil => simp
  | cons c text ih =>
    simp only [List.foldr_cons, Progress.cons]
    split
    · exact ih
    · rename_i hc
      simp only [List.mem_cons, not_or]
      exact ⟨fun h => hc h.symm, not_mem_text ih⟩

/-- A numbered text holds no counter. -/
theorem not_mem_number (index : Nat) (text : Text) : '$' ∉ number index text :=
  not_mem_text (not_mem_after _ text)

end Shorthand.Text.Numbering
