import Shorthand.Alias.Table

/-!
Tokens renamed in place. Such a token keeps its text whole, with the bytes at which its name stands in it. A
new name is put over these bytes, and where it ends is counted anew from its length. A range that reaches
outside the text or cuts a character gives nothing.
-/

namespace Shorthand

/-- Puts another text over what the span covers; nothing when the span is inverted, reaches outside the text
or cuts a character. -/
def Span.replace? (s : Span) (new text : Text) : Option Text := do
  guard (s.start ≤ s.stop)
  let (before, rest) ← text.splitAtByte? s.start
  let (_, after) ← rest.splitAtByte? s.length
  return before ++ new ++ after

namespace Token

/-- A token whose text is kept whole. -/
structure Kept extends Term where
  span : Span
  raw : Text
  nameRange : Span
deriving DecidableEq, Repr

def kept (t : Token) : Kept := { toTerm := t.toTerm, span := t.span, raw := t.raw, nameRange := t.nameRange }

namespace Kept

/-- Puts a name over the name. -/
def rename? (name : Text) (t : Kept) : Option Kept := do
  let raw ← t.nameRange.replace? name t.raw
  let nameRange := ⟨t.nameRange.start, t.nameRange.start + name.byteLength⟩
  return { t with name, raw, nameRange }

/-- Puts the name that an alias stands for over the alias. The empty name, a namespaced name and a name that
is no alias are left alone. -/
def resolve? (table : Alias.Table) (t : Kept) : Option Kept :=
  if t.name.isEmpty || Alias.Table.isNamespaced t.name then some t
  else
    match table.lookup? t.name with
    | some name => t.rename? name
    | none => some t

end Kept

inductive Renaming where
  | name (value : Text)
  /-- The name that a table has for the name. -/
  | table (aliases : Alias.Table)

namespace Renaming

def onToken (t : Token) : Renaming → Token
  | .name value => t.rename value
  | .table aliases => aliases.resolve t

def onKept? (t : Kept) : Renaming → Option Kept
  | .name value => t.rename? value
  | .table aliases => t.resolve? aliases

end Renaming

def renameAll (t : Token) (rs : List Renaming) : Token := rs.foldl Renaming.onToken t

/-- Renames a token in place, one name after the other. -/
def Kept.renameAll? (t : Kept) (rs : List Renaming) : Option Kept :=
  rs.foldlM Renaming.onKept? t

end Token
end Shorthand
