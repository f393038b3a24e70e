import Shorthand.Text

/-!
The characters of TOML, and its quoted strings. There are four forms: basic and literal, each on one line
or on several. In the basic forms a backslash begins an escape; the literal forms have none. Each form is a
reader of one piece of a string at a time.
-/

namespace Shorthand.Toml

def isSpace (c : Char) : Bool := c == ' ' || c == '\t'

/-- A control character other than the tab. -/
def isControl (c : Char) : Bool := (c.toNat < 0x20 && c != '\t') || c == '\x7f'

/-- Can stand in a key without quotes. -/
def isBareKeyChar (c : Char) : Bool := c.isAlphanum || c == '_' || c == '-'

/-- Can stand in a number, a date or a word such as `true`. -/
def isWordChar (c : Char) : Bool := isBareKeyChar c || c == '+' || c == '.' || c == ':'

namespace Quote

inductive Piece where
  /-- A part of the string, and what follows it. -/
  | more (chunk rest : Text)
  /-- The last part of the string with its closing quotes, and what follows them. -/
  | close (chunk rest : Text)

/-- The character written by an escape of one letter. -/
def ofLetter? (c : Char) : Option Char :=
  if c = 'b' then some '\x08'
  else if c = 't' then some '\t'
  else if c = 'n' then some '\n'
  else if c = 'f' then some '\x0c'
  else if c = 'r' then some '\r'
  else if c = 'e' then some '\x1b'
  else if c = '"' ∨ c = '\\' then some c
  else none

/-- The character written by a number of hexadecimal digits, and what follows them. -/
def codePoint? (width : Nat) (text : Text) : Option Piece :=
  if text.length < width then none
  else
    ((Text.Digit.hexNumber? (text.take width)).bind Text.Digit.char?).map fun c =>
      .more [c] (text.drop width)

def escape? : Text → Option Piece
  | [] => none
  | c :: rest =>
    if c = 'x' then codePoint? 2 rest
    else if c = 'u' then codePoint? 4 rest
    else if c = 'U' then codePoint? 8 rest
    else (ofLetter? c).map fun c => .more [c] rest

def afterBreak? : Text → Option Text
  | '\n' :: rest => some rest
  | '\r' :: '\n' :: rest => some rest
  | _ => none

def basic? : Text → Option Piece
  | [] => none
  | c :: rest =>
    if c = '"' then some (.close [] rest)
    else if c = '\\' then escape? rest
    else if isControl c then none
    else some (.more [c] rest)

def literal? : Text → Option Piece
  | [] => none
  | c :: rest =>
    if c = '\'' then some (.close [] rest)
    else if isControl c then none
    else some (.more [c] rest)

/-- Quotes inside a string of several lines. Up to two of them are part of the string; three close
it, and up to two more in front of these are part of it. -/
def quotes (quote : Char) (text : Text) : Piece :=
  let run := (text.takeWhile (· == quote)).length
  if run < 3 then .more [quote] (text.drop 1)
  else .close (List.replicate (min (run - 3) 2) quote) (text.drop (min run 5))

/-- A line break or a plain character inside a string of several lines. -/
def line? (text : Text) : Option Piece :=
  match text with
  | '\n' :: rest => some (.more ['\n'] rest)
  | '\r' :: '\n' :: rest => some (.more ['\r', '\n'] rest)
  | c :: rest => if isControl c then none else some (.more [c] rest)
  | [] => none

/-- The text after the spaces and line breaks that come first. -/
def dropBlank : Text → Text
  | '\n' :: rest => dropBlank rest
  | '\r' :: '\n' :: rest => dropBlank rest
  | c :: rest => if isSpace c then dropBlank rest else c :: rest
  | [] => []

/-- The text after a backslash at the end of a line: the break and all spaces and breaks after it are
left out. -/
def continuation? (text : Text) : Option Piece :=
  (afterBreak? (text.dropWhile isSpace)).map fun rest => .more [] (dropBlank rest)

def multilineBasic? : Text → Option Piece
  | [] => none
  | c :: rest =>
    if c = '"' then some (quotes '"' (c :: rest))
    else if c = '\\' then (continuation? rest).or (escape? rest)
    else line? (c :: rest)

def multilineLiteral? : Text → Option Piece
  | [] => none
  | c :: rest => if c = '\'' then some (quotes '\'' (c :: rest)) else line? (c :: rest)

/-- Reads pieces up to the closing quotes; as many as `fuel`. Gives the string and what follows it. -/
def pieces? (piece? : Text → Option Piece) : Nat → Text → Option (Text × Text)
  | 0, _ => none
  | fuel + 1, text =>
    match piece? text with
    | none => none
    | some (.close chunk rest) => some (chunk, rest)
    | some (.more chunk rest) => (pieces? piece? fuel rest).map fun (s, rest) => (chunk ++ s, rest)

/-- Reads a string whose opening quotes have been passed. No piece is empty, so there are not more of
them than characters. -/
def body? (piece? : Text → Option Piece) (text : Text) : Option (Text × Text) :=
  pieces? piece? (text.length + 1) text

/-- Reads a string on one line, and what follows it. -/
def singleLine? : Text → Option (Text × Text)
  | '"' :: rest => body? basic? rest
  | '\'' :: rest => body? literal? rest
  | _ => none

/-- Reads a string of any form, and what follows it. A line break directly after three opening quotes
is not part of the string. -/
def string? : Text → Option (Text × Text)
  | '"' :: '"' :: '"' :: rest => body? multilineBasic? ((afterBreak? rest).getD rest)
  | '\'' :: '\'' :: '\'' :: rest => body? multilineLiteral? ((afterBreak? rest).getD rest)
  | text => singleLine? text

end Quote
end Shorthand.Toml
