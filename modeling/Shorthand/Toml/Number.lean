import Shorthand.Text

/-!
Numbers as TOML writes them. Single underscores can stand between digits. A number that is too great
for the widest integer or for a float is none.
-/

namespace Shorthand.Toml.Number

/-- Groups of digits joined by single underscores. -/
def isGrouped (isDigit : Char → Bool) (text : Text) : Bool :=
  (text.splitOn '_').all fun group => !group.isEmpty && group.all isDigit

/-- A decimal number without superfluous zeros in front. -/
def isDecimal (text : Text) : Bool :=
  isGrouped Char.isDigit text && (text.head? != some '0' || text.length == 1)

def dropSign : Text → Text
  | '+' :: text => text
  | '-' :: text => text
  | text => text

/-- The number written by grouped digits in a base. -/
def groupedNumber (base : Nat) (text : Text) : Nat :=
  Text.Digit.number base (text.filterMap Text.Digit.hex?)

/-- The widest signed and unsigned integers have 128 bits. -/
def fits (negative : Bool) (n : Nat) : Bool :=
  if negative then n ≤ Nat.pow 2 127 else n < Nat.pow 2 128

def isInteger (text : Text) : Bool :=
  match text with
  | '0' :: 'x' :: digits =>
    isGrouped (fun c => (Text.Digit.hex? c).isSome) digits && fits false (groupedNumber 16 digits)
  | '0' :: 'o' :: digits =>
    isGrouped (fun c => '0' ≤ c && c ≤ '7') digits && fits false (groupedNumber 8 digits)
  | '0' :: 'b' :: digits =>
    isGrouped (fun c => c == '0' || c == '1') digits && fits false (groupedNumber 2 digits)
  | _ =>
    isDecimal (dropSign text) &&
      fits (text.head? == some '-') (groupedNumber 10 (dropSign text))

/-- A whole part with an optional fraction. -/
def isMantissa (text : Text) : Bool :=
  match text.splitOnce? '.' with
  | some (whole, fraction) => isDecimal whole && isGrouped Char.isDigit fraction
  | none => isDecimal text

/-- The mantissa and the exponent of a float without its sign. -/
def splitExponent (body : Text) : Text × Option Text :=
  match Text.splitOnce? 'e' (body.map Char.toLower) with
  | some (mantissa, exponent) => (mantissa, some exponent)
  | none => (body, none)

/-- A decimal number: its digits, the first of which is no zero, and the power of ten that they are
multiplied by. -/
structure Scientific where
  digits : Text
  exponent : Int

def scientific (body : Text) : Scientific :=
  let (mantissa, exponent) := splitExponent body
  let (whole, fraction) := (mantissa.splitOnce? '.').getD (mantissa, [])
  let power : Int := Text.toNat ((exponent.getD []).filter Char.isDigit)
  { digits := ((whole ++ fraction).filter Char.isDigit).dropWhile (· == '0')
    exponent :=
      (if (exponent.getD []).head? == some '-' then -power else power) -
        (fraction.filter Char.isDigit).length }

/-- The least number too great for a float: the one halfway between the greatest float and the power
of two that would come after it. -/
def floatLimit : Nat := Nat.pow 2 1024 - Nat.pow 2 970

def limitDigits : Nat := 309

/-- The number is too great for a float. Numbers with fewer or more digits in front of their point
than the limit are told apart without being written out. -/
def Scientific.overflows (s : Scientific) : Bool :=
  let places : Int := s.digits.length + s.exponent
  if s.digits.isEmpty || decide (places < limitDigits) then false
  else if limitDigits < places then true
  else
    floatLimit * Nat.pow 10 (s.digits.length - limitDigits) ≤
      s.digits.toNat * Nat.pow 10 (limitDigits - s.digits.length)

def isFloat (text : Text) : Bool :=
  let body := dropSign text
  let (mantissa, exponent) := splitExponent body
  body == ['i', 'n', 'f'] || body == ['n', 'a', 'n'] ||
    isMantissa mantissa &&
      (match exponent with
      | some exponent => isGrouped Char.isDigit (dropSign exponent)
      | none => mantissa.contains '.') &&
      !(scientific body).overflows

end Shorthand.Toml.Number
