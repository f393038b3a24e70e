import Shorthand.Toml.DateTime
import Shorthand.Toml.Number
import Shorthand.Toml.Quote
import Shorthand.Toml.Value

/-!
Reading TOML documents. A document is read line by line into one table; each reader gives what it read
and the text after it, or nothing when the text is not well formed.
-/

namespace Shorthand.Toml.Reader

def dropSpace (text : Text) : Text := text.dropWhile isSpace

/-- The text after an optional comment; nothing when the comment holds a control character. -/
def skipComment? (text : Text) : Option Text :=
  match text with
  | '#' :: rest =>
    let after := rest.dropWhile (!isControl ·)
    if after.isEmpty || (Quote.afterBreak? after).isSome then some after else none
  | _ => some text

/-- The text after the rest of a line: spaces, an optional comment, and a break or the end. -/
def endLine? (text : Text) : Option Text := do
  let text ← skipComment? (dropSpace text)
  if text.isEmpty then some [] else Quote.afterBreak? text

/-- The text after spaces, breaks and comments; as many lines as `fuel`. -/
def skipLines? : Nat → Text → Option Text
  | 0, text => some text
  | fuel + 1, text => do
    let text ← skipComment? (dropSpace text)
    match Quote.afterBreak? text with
    | some rest => skipLines? fuel rest
    | none => some text

/-- The text after all spaces, breaks and comments that come first. -/
def dropLines? (text : Text) : Option Text := skipLines? (text.length + 1) text

/-- A key without dots. -/
def simpleKey? (text : Text) : Option (Text × Text) :=
  match text.takeWhile isBareKeyChar with
  | [] => Quote.singleLine? text
  | key => some (key, text.dropWhile isBareKeyChar)

/-- A key of at most `fuel` parts joined by dots. -/
def keyParts? : Nat → Text → Option (List Text × Text)
  | 0, _ => none
  | fuel + 1, text => do
    let (key, rest) ← simpleKey? (dropSpace text)
    match dropSpace rest with
    | '.' :: rest => (keyParts? fuel rest).map fun (keys, rest) => (key :: keys, rest)
    | rest => some ([key], rest)

/-- How deep arrays and inline tables can be nested, and how many parts a key can have. -/
def maxDepth : Nat := 80

/-- A key, dotted or not, with the spaces around it. -/
def key? (text : Text) : Option (List Text × Text) :=
  (keyParts? (text.length + 1) text).filter fun (keys, _) => keys.length ≤ maxDepth

/-- A word, together with the time of day that follows a date after one space. -/
def word (text : Text) : Text × Text :=
  let first := text.takeWhile isWordChar
  match DateTime.date? first, text.dropWhile isWordChar with
  | some (_, []), ' ' :: d :: rest =>
    if d.isDigit then
      (first ++ ' ' :: (d :: rest).takeWhile isWordChar, (d :: rest).dropWhile isWordChar)
    else (first, ' ' :: d :: rest)
  | _, rest => (first, rest)

/-- Reads a value with a given reader for the values inside it. -/
abbrev ValueReader := Text → Option (Value × Text)

/-- The items of an array, up to its closing bracket; as many as `fuel`. -/
def items? (value? : ValueReader) : Nat → Text → Option (List Value × Text)
  | 0, _ => none
  | fuel + 1, text => do
    match ← dropLines? text with
    | ']' :: rest => some ([], rest)
    | text =>
      let (item, rest) ← value? text
      match ← dropLines? rest with
      | ',' :: rest => (items? value? fuel rest).map fun (items, rest) => (item :: items, rest)
      | ']' :: rest => some ([item], rest)
      | _ => none

/-- A key and its value; `skip?` passes over what can stand around the equals sign. -/
def entry? (skip? : Text → Option Text) (value? : ValueReader) (text : Text) :
    Option (List Text × Value × Text) := do
  let (keys, rest) ← key? text
  match ← skip? rest with
  | '=' :: rest =>
    let (value, rest) ← value? (← skip? rest)
    return (keys, value, rest)
  | _ => none

/-- The entries of an inline table, up to its closing brace, added to those before; as many as
`fuel`. -/
def inlineEntries? (value? : ValueReader) : Nat → Table → Text → Option (Table × Text)
  | 0, _, _ => none
  | fuel + 1, table, text => do
    match ← dropLines? text with
    | '\x7d' :: rest => some (table, rest)
    | text =>
      let (keys, value, rest) ← entry? dropLines? value? text
      let table ← table.addEntry keys value
      match ← dropLines? rest with
      | ',' :: rest => inlineEntries? value? fuel table rest
      | '\x7d' :: rest => some (table, rest)
      | _ => none

/-- The value that a word writes: a truth value, a number, a date or a time. -/
def wordValue? (text : Text) : Option Value :=
  if text = ['t', 'r', 'u', 'e'] ∨ text = ['f', 'a', 'l', 's', 'e'] then some .boolean
  else if Number.isInteger text then some .integer
  else if Number.isFloat text then some .float
  else (DateTime.read? text).map .dateTime

/-- A value in which arrays and inline tables are nested at most `depth` deep. -/
def value? : Nat → ValueReader
  | depth, '[' :: rest =>
    match depth with
    | 0 => none
    | depth + 1 =>
      (items? (value? depth) (rest.length + 1) rest).map fun (items, rest) => (.array false items, rest)
  | depth, '\x7b' :: rest =>
    match depth with
    | 0 => none
    | depth + 1 =>
      (inlineEntries? (value? depth) (rest.length + 1) {} rest).map fun (table, rest) =>
        (.table .inline table.entries, rest)
  | _, text =>
    match Quote.string? text with
    | some (s, rest) => some (.string s, rest)
    | none => (wordValue? (word text).1).map fun v => (v, (word text).2)

inductive Line where
  | blank
  /-- A header, and whether it is one of an array of tables. -/
  | header (array : Bool) (keys : List Text)
  | entry (keys : List Text) (value : Value)

/-- Reads the line that comes first; a line with values of several lines counts as one. -/
def line? (text : Text) : Option (Line × Text) :=
  match dropSpace text with
  | '[' :: '[' :: rest => do
    let (keys, rest) ← key? rest
    match rest with
    | ']' :: ']' :: rest => return (.header true keys, ← endLine? rest)
    | _ => none
  | '[' :: rest => do
    let (keys, rest) ← key? rest
    match rest with
    | ']' :: rest => return (.header false keys, ← endLine? rest)
    | _ => none
  | text =>
    if text.isEmpty || text.head? == some '#' || (Quote.afterBreak? text).isSome then
      (endLine? text).map fun rest => (.blank, rest)
    else do
      let (keys, value, rest) ← entry? (some <| dropSpace ·) (value? maxDepth) text
      return (.entry keys value, ← endLine? rest)

def lines? : Nat → Text → Option (List Line)
  | _, [] => some []
  | 0, _ => none
  | fuel + 1, text => do
    let (line, rest) ← line? text
    let lines ← lines? fuel rest
    return line :: lines

/-- What has been read of a document: its table, and the header that entries belong to. -/
structure Progress where
  table : Table := {}
  header : List Text := []

def Progress.add? (p : Progress) : Line → Option Progress
  | .blank => some p
  | .header array keys => (p.table.addHeader array keys).map fun table => ⟨table, keys⟩
  | .entry keys value =>
    (p.table.addEntryBelow p.header keys value).map fun table => { p with table }

def dropMark : Text → Text
  | '\ufeff' :: text => text
  | text => text

/-- The table that a document writes; nothing when it is not well formed. -/
def document? (text : Text) : Option Table := do
  let lines ← lines? (text.length + 1) (dropMark text)
  let progress ← lines.foldlM Progress.add? {}
  return progress.table

end Shorthand.Toml.Reader
