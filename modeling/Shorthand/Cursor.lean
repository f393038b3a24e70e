import Shorthand.Group

/-!
A cursor over a text. It moves bytewise, so it can stand inside a character; what is read as text is
read from a position between two characters.
-/

namespace Shorthand

/-- A position in a text that begins at offset `base` of a larger one. -/
structure Cursor where
  text : Text
  base : Nat := 0
  offset : Nat := 0
deriving DecidableEq, Repr

namespace Cursor

/-- The position in the larger text. -/
def position (cur : Cursor) : Nat := cur.base + cur.offset

def atEnd (cur : Cursor) : Bool := cur.text.byteLength ≤ cur.offset

def peek? (cur : Cursor) : Option UInt8 := cur.text.bytes[cur.offset]?

def advance (cur : Cursor) : Cursor :=
  if cur.atEnd then cur else { cur with offset := cur.offset + 1 }

/-- The text after the cursor, unless it stands inside a character. -/
def rest? (cur : Cursor) : Option Text := (cur.text.splitAtByte? cur.offset).map (·.2)

/-- The cursor moved to where only `rest` is left. -/
def moveTo (cur : Cursor) (rest : Text) : Cursor :=
  { cur with offset := cur.text.byteLength - rest.byteLength }

/-- The run of decimal digits after the cursor, and the cursor after it. -/
def digits (cur : Cursor) : Text × Cursor :=
  match cur.rest? with
  | some rest => (rest.takeWhile Char.isDigit, cur.moveTo (rest.dropWhile Char.isDigit))
  | none => ([], cur)

inductive Enclosed where
  /-- The contents of a group that is closed. -/
  | closed (inner : Text)
  /-- All that follows the opener of a group that is never closed. -/
  | unclosed (inner : Text)
deriving DecidableEq, Repr

/-- Reads the group whose opener is next, with the groups nested in it; nothing when another
character is next. A group that is never closed runs to the end. -/
def enclosed? (opener closer : Char) (cur : Cursor) : Option (Enclosed × Cursor) :=
  match cur.rest? with
  | some (c :: text) =>
    if c = opener then
      match Group.close? opener closer 0 text with
      | some (inner, after) => some (.closed inner, cur.moveTo after)
      | none => some (.unclosed text, cur.moveTo [])
    else none
  | _ => none

end Cursor
end Shorthand
