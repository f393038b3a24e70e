import Shorthand.Text

/-! Half-open ranges of byte offsets into a text. -/

namespace Shorthand

/-- The bytes from `start` up to and without `stop`. -/
structure Span where
  start : Nat
  stop : Nat
deriving DecidableEq, Repr

namespace Span

def of (text : Text) : Span := ⟨0, text.byteLength⟩

/-- The number of bytes covered; none when the ends are in the wrong order. -/
def length (s : Span) : Nat := s.stop - s.start

def isEmpty (s : Span) : Bool := s.length == 0

/-- The part of the text that the span covers; nothing when the span is inverted, reaches outside the
text or cuts a character. -/
def slice? (s : Span) (text : Text) : Option Text := do
  guard (s.start ≤ s.stop)
  let (_, after) ← text.splitAtByte? s.start
  let (inside, _) ← after.splitAtByte? s.length
  return inside

/-- Widens the span to the end of one that follows it. -/
def join (s next : Span) : Span := ⟨s.start, next.stop⟩

def before (s t : Span) : Bool := s.start < t.start || (s.start == t.start && s.stop < t.stop)

theorem slice?_of (text : Text) : (of text).slice? text = some text := by
  have h := Text.splitAtByte?_append text []
  simp only [List.append_nil] at h
  have hguard : (guard ((of text).start ≤ (of text).stop) : Option Unit) = some () :=
    if_pos (Nat.zero_le _)
  rw [slice?, hguard]
  simp [of, length, Text.splitAtByte?, h]

end Span
end Shorthand
