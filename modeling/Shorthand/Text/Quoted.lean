import Shorthand.Text
import Shorthand.Unicode.Printable

/-!
Quoting for messages. A character stands between apostrophes and a text between double quotes; what
could be misread or not be seen is written as an escape.
-/

namespace Shorthand.Text.Quoted

/-- The escape by code point, in lower-case hexadecimal. -/
def codePoint (c : Char) : Text := ['\\', 'u', '\x7b'] ++ Nat.toDigits 16 c.toNat ++ ['\x7d']

def escape (quote c : Char) : Text :=
  if c = '\t' then ['\\', 't']
  else if c = '\r' then ['\\', 'r']
  else if c = '\n' then ['\\', 'n']
  else if c = '\x00' then ['\\', '0']
  else if c = '\\' ∨ c = quote then ['\\', c]
  else if Unicode.isExtending c || !Unicode.isPrintable c then codePoint c
  else [c]

def ofText (text : Text) : Text := '"' :: text.flatMap (escape '"') ++ ['"']

def ofChar (c : Char) : Text := '\'' :: escape '\'' c ++ ['\'']

end Shorthand.Text.Quoted
