import Shorthand.Token

/-!
Fragments and names by their offsets in a larger text. The text is scanned bytewise, and the spans that are
found are glued in place, from the last to the first. Whatever could reach outside the text or the list of
spans, or cut a character, gives nothing.
-/

namespace Shorthand

namespace Fragment

/-- Cuts before every operator byte. The open span began at `start`, and the next byte is at `position`. -/
def scan (operators : List UInt8) (start position : Nat) : List UInt8 → List Span
  | [] => [⟨start, position⟩]
  | b :: bytes =>
    if operators.contains b then ⟨start, position⟩ :: scan operators position (position + 1) bytes
    else scan operators start (position + 1) bytes

/-- The spans of a text that begins at `start`, cut before every operator byte but the first byte. -/
def cutIn (operators : List UInt8) (start : Nat) : List UInt8 → List Span
  | [] => [⟨start, start⟩]
  | _ :: bytes => scan operators start (start + 1) bytes

/-- Removes the span behind the one with the given index, and widens that one over it. -/
def joinNext? (parts : List Span) (i : Nat) : Option (List Span) := do
  let next ← parts[i + 1]?
  let parts := parts.eraseIdx (i + 1)
  let part ← parts[i]?
  return parts.set i (part.join next)

/-- Runs a step at each index below a bound, the largest index first. -/
def runDown? (step? : List Span → Nat → Option (List Span)) : Nat → List Span → Option (List Span)
  | 0, parts => some parts
  | i + 1, parts => do runDown? step? i (← step? parts i)

/-- Glues the span behind the one with the given index to it when it continues a group. -/
def glueAt? (source : Text) (parts : List Span) (i : Nat) : Option (List Span) := do
  let text ← (← parts[i + 1]?).slice? source
  if continuesGroup text then joinNext? parts i else return parts

/-- A lone climb at the given index takes the next span in. -/
def climbAt? (source : Text) (parts : List Span) (i : Nat) : Option (List Span) := do
  let text ← (← parts[i]?).slice? source
  if text = [Delimiter.climb] then joinNext? parts i else return parts

def splitIn? (operators : List Char) (source : Text) (span : Span) : Option (List Span) :=
  if span.isEmpty then some [] else do
    let text ← span.slice? source
    let parts := cutIn (Text.bytes operators) span.start text.bytes
    let parts ← runDown? (glueAt? source) (parts.length - 1) parts
    runDown? (climbAt? source) (parts.length - 1) parts

end Fragment

namespace Token

/-- Takes the name that a fragment says for the name found last, with its place behind `start`. -/
def nameFrom? (source : Text) (start : Nat) (found : Text × Span) (fragment : Span) :
    Option (Text × Span) := do
  let text ← fragment.slice? source
  if text = [] then return found
  match (readFragment text).1 with
  | .modifier _ => return found
  | .name value =>
    guard (start ≤ fragment.start)
    let offset := fragment.start - start
    return (value, ⟨offset, offset + value.byteLength⟩)

/-- The name of the token in a part of a text, and where it stands in this part. -/
def nameIn? (source : Text) (span : Span) : Option (Text × Span) := do
  let raw ← span.slice? source
  let width := Text.byteLength (raw.takeWhile Delimiter.structural.contains)
  let fragments ← Fragment.splitIn? Delimiter.modifiers source ⟨span.start + width, span.stop⟩
  fragments.foldlM (nameFrom? source span.start) ([], ⟨width, width⟩)

end Token
end Shorthand
