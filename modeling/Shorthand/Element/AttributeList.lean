import Shorthand.Element

/-!
Attribute lists such as `key=value key2='quoted value' flag`. The list is first cut at every space; a
piece that is the tail of a quoted or braced value is glued to the piece before it.
-/

namespace Shorthand.AttributeList

/-- The piece is the tail of a value that holds spaces. -/
def continuesValue (piece : Text) : Bool :=
  ((1 < piece.count '\'' || 1 < piece.count '"') && !piece.contains '=') ||
  (piece.count '"' == 1 && piece.getLast? == some '"') ||
  (piece.count '\'' == 1 && piece.getLast? == some '\'') ||
  piece.count '{' < piece.count '}'

/-- Puts a piece in front; the next one is glued to it, over a space, when it continues a value. -/
def glueStep (piece : Text) : List Text → List Text
  | next :: pieces =>
    if continuesValue next then (piece ++ ' ' :: next) :: pieces else piece :: next :: pieces
  | [] => [piece]

def unquote : Text → Text
  | [] => []
  | q :: rest =>
    if (q = '\'' ∨ q = '"') ∧ rest.getLast? = some q then rest.dropLast else q :: rest

/-- The attribute that a piece writes: a key, and after the first equals sign its value. A piece
without a key writes none. -/
def attribute? (piece : Text) : Option Attribute :=
  let (key, value) := (piece.splitOnce? '=').getD (piece, [])
  if key.trim.isEmpty then none else some (key.trim, unquote value.trim)

/-- The pieces of a list, one per attribute; pieces between two spaces in a row are empty. -/
def pieces (list : Text) : List Text := (list.trim.splitOn ' ').foldr glueStep []

def parse (list : Text) : List Attribute := (pieces list).filterMap attribute?

end Shorthand.AttributeList
