import Shorthand.Alias.Stock
import Shorthand.Token
import Shorthand.Unicode.Lowercase

/-!
Alias tables. Aliases are stored in lower case and looked up without regard to case. Where tables are
laid over one another the first entry of an alias is kept.
-/

namespace Shorthand.Alias

/-- Adds an entry under the lower case of its key, unless there is one. -/
def addNew (d : Dictionary) (entry : Text × Text) : Dictionary :=
  d.insertNew (Unicode.lowercase entry.1) entry.2

/-- The entries of both dictionaries under lower-case keys. Of several entries with one lower-case key
the first in the order of the keys is kept, and those of `base` come first. -/
def merge (base overrides : Dictionary) : Dictionary :=
  (base.entries ++ overrides.entries).foldl addNew .empty

structure Table where
  entries : Dictionary
deriving DecidableEq

namespace Table

def empty : Table := ⟨.empty⟩

def ofDictionary (d : Dictionary) : Table := ⟨merge d .empty⟩

def stock : Table := ofDictionary Alias.stock

/-- The stock table with further aliases. Of several with one lower case the first is kept, and none
replaces a stock alias. -/
def withOverrides (overrides : List (Text × Text)) : Table :=
  ofDictionary (merge Alias.stock (overrides.foldl addNew .empty))

def size (table : Table) : Nat := table.entries.size

def lookup? (table : Table) (key : Text) : Option Text :=
  table.entries.get? (Unicode.lowercase key)

/-- Two words joined by a colon. -/
def isNamespaced (name : Text) : Bool :=
  match name.dropWhile Unicode.isWord with
  | ':' :: word => !(name.takeWhile Unicode.isWord).isEmpty && !word.isEmpty && word.all Unicode.isWord
  | _ => false

/-- The name that a written name stands for. The empty name and namespaced names stand for
themselves, and so does a name that is no alias. -/
def resolveName (table : Table) (name : Text) : Text :=
  if name.isEmpty || isNamespaced name then name else (table.lookup? name).getD name

theorem resolveName_empty (name : Text) : empty.resolveName name = name := by
  unfold resolveName
  split <;> rfl

def resolve (table : Table) (token : Token) : Token := token.rename (table.resolveName token.name)

/-- The width of the column of aliases: the number of bytes of the longest one. -/
def width (table : Table) : Nat :=
  (table.entries.entries.map fun (key, _) => key.byteLength).foldl max 0

end Table

/-- The line of one alias, padded to the width of its column. -/
def listingLine (width : Nat) (key name : Text) : Text :=
  key.rightpad width ' ' ++ " → ".toList ++ name ++ ['\n']

namespace Table

def listing (table : Table) : Text :=
  table.entries.entries.flatMap fun (key, name) => listingLine table.width key name

/-- The listing, if aliases can be padded to its column. -/
def listing? (table : Table) : Option Text :=
  if table.width ≤ Text.maxWidth then some table.listing else none

end Table
end Shorthand.Alias
