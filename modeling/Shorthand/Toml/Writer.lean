import Shorthand.Toml.Quote

/-!
Writing TOML. A string is written in the first form that needs no escape: basic, literal, basic on
several lines, literal on several lines; if none does, it is written with escapes.
-/

namespace Shorthand.Toml.Writer

inductive Form where
  | basic
  | literal
  | multilineBasic
  | multilineLiteral
deriving DecidableEq, Repr

/-- Holds a control character other than tabs and line feeds. -/
def hasControl (text : Text) : Bool := text.any fun c => isControl c && c != '\n'

def form (text : Text) : Form :=
  if !hasControl text && !text.contains '\\' && Text.longestRun '"' text == 0 && !text.contains '\n' then
    .basic
  else if !hasControl text && Text.longestRun '\'' text == 0 && !text.contains '\n' then .literal
  else if !hasControl text && !text.contains '\\' && Text.longestRun '"' text ≤ 2 then .multilineBasic
  else if !hasControl text && Text.longestRun '\'' text ≤ 2 then .multilineLiteral
  else if text.contains '\n' then .multilineBasic
  else .basic

def upperHex (n : Nat) : Char := (Nat.digitChar n).toUpper

/-- The escape of a control character by its code, in four digits. -/
def codeEscape (c : Char) : Text :=
  ['\\', 'u', upperHex (c.toNat / 4096 % 16), upperHex (c.toNat / 256 % 16),
    upperHex (c.toNat / 16 % 16), upperHex (c.toNat % 16)]

/-- A character other than a quote, inside a basic string. -/
def escape (multiline : Bool) (c : Char) : Text :=
  if c = '\x08' then ['\\', 'b']
  else if c = '\t' then ['\\', 't']
  else if c = '\n' then if multiline then ['\n'] else ['\\', 'n']
  else if c = '\x0c' then ['\\', 'f']
  else if c = '\r' then ['\\', 'r']
  else if c = '\\' then ['\\', '\\']
  else if isControl c then codeEscape c
  else [c]

/-- The inside of a basic string after as many quotes in a row. On several lines two quotes in a row
can stand as they are, on one line none can. -/
def escaped (multiline : Bool) : Nat → Text → Text
  | _, [] => []
  | row, c :: text =>
    if c = '"' then
      if row < (if multiline then 2 else 0) then '"' :: escaped multiline (row + 1) text
      else '\\' :: '"' :: escaped multiline 0 text
    else escape multiline c ++ escaped multiline 0 text

/-- The line break after the opening quotes of a string that has line breaks of its own. -/
def leadingBreak (text : Text) : Text := if text.contains '\n' then ['\n'] else []

def inForm : Form → Text → Text
  | .basic, text => '"' :: escaped false 0 text ++ ['"']
  | .literal, text => '\'' :: text ++ ['\'']
  | .multilineBasic, text =>
    ['"', '"', '"'] ++ leadingBreak text ++ escaped true 0 text ++ ['"', '"', '"']
  | .multilineLiteral, text =>
    ['\'', '\'', '\''] ++ leadingBreak text ++ text ++ ['\'', '\'', '\'']

def string (text : Text) : Text := inForm (form text) text

def keyForm (key : Text) : Form :=
  if !key.any isControl && !key.contains '\\' && !key.contains '"' then .basic
  else if !key.any isControl && !key.contains '\'' then .literal
  else .basic

/-- A key, without quotes if it can be. -/
def key (key : Text) : Text :=
  if !key.isEmpty && key.all isBareKeyChar then key else inForm (keyForm key) key

/-- An array of strings. Two or more go on lines of their own. -/
def array : List Text → Text
  | [] => ['[', ']']
  | [item] => '[' :: string item ++ [']']
  | items =>
    '[' :: '\n' :: items.flatMap (fun item => "    ".toList ++ string item ++ [',', '\n']) ++ [']']

def entry (name value : Text) : Text := key name ++ " = ".toList ++ value ++ ['\n']

def header (name : Text) : Text := '[' :: key name ++ [']', '\n']

end Shorthand.Toml.Writer
