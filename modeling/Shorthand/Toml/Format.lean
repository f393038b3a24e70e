import Shorthand.Toml.Reader
import Shorthand.Toml.Writer

/-!
Documents before they are written, and formats: ways to write them and to read tables back.
-/

namespace Shorthand.Toml

/-- What is written under a key in front of the headers. -/
inductive Item where
  | string (text : Text)
  | array (items : List Text)
deriving DecidableEq, Repr

/-- A document before it is written: items under keys, then tables of strings under headers. -/
structure Draft where
  items : List (Text × Item)
  tables : List (Text × List (Text × Text))
deriving DecidableEq, Repr

/-- A way to write documents and to read them. -/
structure Format where
  write : Draft → Text
  read? : Text → Option Table

namespace Writer

def item : Item → Text
  | .string text => string text
  | .array items => array items

/-- Tables under their headers. A blank line comes before a header unless the document begins with it. -/
def tables (isFirst : Bool) : List (Text × List (Text × Text)) → Text
  | [] => []
  | (name, entries) :: rest =>
    (if isFirst then [] else ['\n']) ++ header name ++
      entries.flatMap (fun (key, text) => entry key (string text)) ++ tables false rest

def document (draft : Draft) : Text :=
  draft.items.flatMap (fun (key, value) => entry key (item value)) ++
    tables draft.items.isEmpty draft.tables

end Writer

/-- The format of the writer and the reader. -/
def Format.standard : Format := ⟨Writer.document, Reader.document?⟩

end Shorthand.Toml
