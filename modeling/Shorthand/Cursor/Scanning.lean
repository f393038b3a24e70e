import Shorthand.Cursor
import Shorthand.Span

/-!
Groups by their bytes. From the opener on the bytes are gone through one by one, with a count of the groups
that are open. Whatever would count below zero, reach outside the text or cut a character gives nothing.
-/

namespace Shorthand.Cursor

inductive GroupEnd where
  /-- The closer of the group is at this offset. -/
  | closer (offset : Nat)
  /-- The text ends at this offset, and the group has no closer. -/
  | missing (offset : Nat)
deriving DecidableEq, Repr

/-- Goes through the bytes that begin at an offset, with so many groups open. -/
def scanGroup? (opener closer : UInt8) : Nat → Nat → List UInt8 → Option GroupEnd
  | _, offset, [] => some (.missing offset)
  | depth, offset, b :: bytes =>
    if b = opener then scanGroup? opener closer (depth + 1) (offset + 1) bytes
    else if b = closer then
      if depth = 0 then none
      else if depth - 1 = 0 then some (.closer offset)
      else scanGroup? opener closer (depth - 1) (offset + 1) bytes
    else scanGroup? opener closer depth (offset + 1) bytes

/-- Slices the contents of a group with the given end out of the text, and moves the cursor behind it. -/
def takeGroup? (cur : Cursor) : GroupEnd → Option (Enclosed × Cursor)
  | .closer offset => do
    let inner ← Span.slice? ⟨cur.offset + 1, offset⟩ cur.text
    return (.closed inner, { cur with offset := offset + 1 })
  | .missing offset => do
    let stop := cur.text.byteLength
    let inner ← Span.slice? ⟨min (cur.offset + 1) stop, stop⟩ cur.text
    return (.unclosed inner, { cur with offset })

def scanEnclosed? (opener closer : UInt8) (cur : Cursor) : Option (Enclosed × Cursor) := do
  guard (cur.peek? = some opener)
  cur.takeGroup? (← scanGroup? opener closer 0 cur.offset (cur.text.bytes.drop cur.offset))

end Shorthand.Cursor
