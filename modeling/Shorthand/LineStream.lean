import Shorthand.Expansion

/-!
Expansion of a stream of lines. Each line is expanded by itself; one that has no expansion is passed
on. The stream ends early at a line that is not well-formed text and at one whose expansion breaks off.
-/

namespace Shorthand.LineStream

/-- A line without the line feed that ends it; only the last line can be without one. -/
structure Line where
  bytes : List UInt8
  terminated : Bool
deriving DecidableEq, Repr

/-- Puts a byte in front: a line feed ends a line of its own, any other byte belongs to the first
line. -/
def consByte (b : UInt8) : List Line → List Line
  | line :: lines =>
    if b = 10 then ⟨[], true⟩ :: line :: lines else ⟨b :: line.bytes, line.terminated⟩ :: lines
  | [] => if b = 10 then [⟨[], true⟩] else [⟨[b], false⟩]

def lines (input : List UInt8) : List Line := input.foldr consByte []

/-- What a line holds; a carriage return in front of its line feed is no part of it. -/
def Line.content (line : Line) : List UInt8 :=
  if line.terminated && line.bytes.getLast? == some 13 then line.bytes.dropLast else line.bytes

inductive Ending where
  /-- All lines were read. -/
  | finished
  /-- A line is no text. -/
  | unreadable
  /-- The expansion of a line broke off. -/
  | aborted
deriving DecidableEq, Repr

structure Transcript where
  output : Text
  ending : Ending
deriving DecidableEq, Repr

/-- The expansion of a line, or the line itself; nothing when the expansion breaks off. -/
def expandLine? (x : Expander) (line : Text) : Option Text :=
  match x.expand line with
  | .ok markup => some markup
  | .error _ => some line
  | .aborted => none

/-- Expands lines up to the first that is no text or whose expansion breaks off. -/
def expandLines (x : Expander) : List Line → Transcript
  | [] => ⟨[], .finished⟩
  | line :: lines =>
    match Text.ofBytes? line.content with
    | none => ⟨[], .unreadable⟩
    | some text =>
      match expandLine? x text with
      | none => ⟨[], .aborted⟩
      | some out =>
        let rest := expandLines x lines
        ⟨out ++ '\n' :: rest.output, rest.ending⟩

def run (x : Expander) (input : List UInt8) : Transcript := expandLines x (lines input)

end Shorthand.LineStream
