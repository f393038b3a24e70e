import Shorthand.Text

/-! Line breaks: carriage returns and line feeds, alone or in runs. -/

namespace Shorthand.Text.Lines

def isBreak (c : Char) : Bool := c == '\r' || c == '\n'

/-- Puts a character in front; a break in front of a line feed is taken in by it. -/
def collapseStep (c : Char) (text : Text) : Text :=
  if isBreak c then
    match text with
    | '\n' :: _ => text
    | _ => '\n' :: text
  else c :: text

/-- Writes each run of breaks as one line feed. -/
def collapse (text : Text) : Text := text.foldr collapseStep []

/-- The text without breaks at its ends and with single line feeds inside. -/
def tidy (text : Text) : Text := collapse (text.trimBy isBreak)

theorem not_mem_collapseStep {c : Char} {text : Text} (h : '\r' ∉ text) :
    '\r' ∉ collapseStep c text := by
  unfold collapseStep
  split
  · split
    · exact h
    · simpa using h
  · rename_i hc
    simp only [List.mem_cons, not_or]
    exact ⟨fun h => hc (by simp [← h, isBreak]), h⟩

theorem not_mem_collapse (text : Text) : '\r' ∉ collapse text := by
  induction text with
  | nil => simp [collapse]
  | cons c text ih => exact not_mem_collapseStep ih

/-- A tidy text holds no carriage return. -/
theorem not_mem_tidy (text : Text) : '\r' ∉ tidy text := not_mem_collapse _

end Shorthand.Text.Lines
