import Shorthand.Text

/-!
TOML values and tables. A table remembers how it was written, because that decides what may still be
added to it: a table with a header is complete when its section ends, a table that dotted keys made can
take more dotted keys, and an inline table takes nothing.
-/

namespace Shorthand.Toml

inductive TableKind where
  /-- It has a header of its own, or is the document. -/
  | headed
  /-- The header of a table inside it made it. -/
  | implied
  /-- Dotted keys made it. -/
  | dotted
  /-- It is written between braces. -/
  | inline
deriving DecidableEq, Repr

/-- A value. Of numbers and truth values only the kind is kept. -/
inductive Value where
  | string (text : Text)
  | integer
  | float
  | boolean
  /-- A date, a time or both, in the standard spelling. -/
  | dateTime (text : Text)
  /-- An array; whether it is made of headed tables. -/
  | array (ofTables : Bool) (items : List Value)
  | table (kind : TableKind) (entries : List (Text × Value))
deriving Inhabited, Repr

/-- A table with its entries in the order in which their keys were first written. -/
structure Table where
  kind : TableKind := .headed
  entries : List (Text × Value) := []
deriving Inhabited, Repr

namespace Table

def get? (t : Table) (key : Text) : Option Value := t.entries.lookup key

def assign (key : Text) (value : Value) : List (Text × Value) → List (Text × Value)
  | [] => [(key, value)]
  | (k, v) :: rest => if k = key then (k, value) :: rest else (k, v) :: assign key value rest

def put (key : Text) (value : Value) (t : Table) : Table :=
  { t with entries := assign key value t.entries }

def putTable (key : Text) (t inner : Table) : Table := t.put key (.table inner.kind inner.entries)

/-- Changes the table that a path of keys leads to. Missing tables are made; a key of an array of
tables leads to its last table. Nothing results when a key leads elsewhere: to a value that is no
table, into an inline table, or, for dotted keys, into a table with a header. -/
def changeAt (dotted : Bool) (change : Table → Option Table) : List Text → Table → Option Table
  | [], t => change t
  | key :: path, t =>
    match t.get? key with
    | none =>
      (changeAt dotted change path { kind := if dotted then .dotted else .implied }).map (t.putTable key)
    | some (.table kind entries) =>
      if kind = .inline ∨ (dotted ∧ kind = .headed) then none
      else (changeAt dotted change path ⟨kind, entries⟩).map (t.putTable key)
    | some (.array true items) =>
      match items.getLast? with
      | some (.table kind entries) =>
        (changeAt dotted change path ⟨kind, entries⟩).map fun last =>
          t.put key (.array true (items.dropLast ++ [.table last.kind last.entries]))
      | _ => none
    | some _ => none

/-- Adds an entry with a new key. The table must be as it was written: a dotted key adds to a table
made by dotted keys, a plain key to any other. -/
def addNew (viaDots : Bool) (key : Text) (value : Value) (t : Table) : Option Table :=
  if (t.kind == .dotted) != viaDots || (t.get? key).isSome then none else some (t.put key value)

def addEntry (keys : List Text) (value : Value) (t : Table) : Option Table :=
  match keys.getLast? with
  | none => none
  | some key => changeAt true (addNew (1 < keys.length) key value) keys.dropLast t

/-- Opens the table of a header: it is new, or was made by headers of tables inside it. -/
def openTable (key : Text) (t : Table) : Option Table :=
  match t.get? key with
  | none => some (t.putTable key {})
  | some (.table .implied entries) => some (t.putTable key { entries })
  | some _ => none

/-- Adds a table to an array of tables, which may be new. -/
def openElement (key : Text) (t : Table) : Option Table :=
  match t.get? key with
  | none => some (t.put key (.array true [.table .headed []]))
  | some (.array true items) => some (t.put key (.array true (items ++ [.table .headed []])))
  | some _ => none

/-- Opens what a header names: a table, or one more table of an array. -/
def addHeader (array : Bool) (keys : List Text) (t : Table) : Option Table :=
  match keys.getLast? with
  | none => none
  | some key =>
    changeAt false (if array then openElement key else openTable key) keys.dropLast t

/-- Adds an entry below the table that the last header opened. -/
def addEntryBelow (header keys : List Text) (value : Value) (t : Table) : Option Table :=
  changeAt false (addEntry keys value) header t

end Table
end Shorthand.Toml
