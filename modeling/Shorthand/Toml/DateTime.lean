import Shorthand.Text

/-!
Dates and times. Each reader gives the standard spelling of what it read and the text after it.
-/

namespace Shorthand.Toml.DateTime

/-- A number of exactly `width` digits between the bounds, and the text after it. -/
def field? (width low high : Nat) (text : Text) : Option (Text × Text) :=
  let digits := text.take width
  let number := Text.toNat digits
  if digits.length = width ∧ digits.all Char.isDigit ∧ low ≤ number ∧ number ≤ high then
    some (digits, text.drop width)
  else none

def isLeapYear (year : Nat) : Bool := year % 4 == 0 && (year % 100 != 0 || year % 400 == 0)

def daysInMonth (year month : Nat) : Nat :=
  if month = 2 then if isLeapYear year then 29 else 28
  else if month = 4 ∨ month = 6 ∨ month = 9 ∨ month = 11 then 30 else 31

/-- The text after a character that must come first. -/
def skip? (c : Char) : Text → Option Text
  | x :: text => if x = c then some text else none
  | [] => none

def date? (text : Text) : Option (Text × Text) := do
  let (year, text) ← field? 4 0 9999 text
  let (month, text) ← field? 2 1 12 (← skip? '-' text)
  let (day, text) ← field? 2 1 (daysInMonth year.toNat month.toNat) (← skip? '-' text)
  return (year ++ '-' :: month ++ '-' :: day, text)

/-- A fraction of a second, in nanoseconds and without zeros at its end. -/
def fraction (digits : Text) : Text :=
  let shown := ((digits.take 9).reverse.dropWhile (· == '0')).reverse
  if shown.isEmpty then [] else '.' :: shown

/-- Seconds with their fraction, and the text after them. Without them the minute has just begun. -/
def seconds? (text : Text) : Option (Text × Text) :=
  match text with
  | ':' :: text => do
    let (second, text) ← field? 2 0 60 text
    match text with
    | '.' :: rest =>
      let digits := rest.takeWhile Char.isDigit
      if digits.isEmpty then none
      else return (second ++ fraction digits, rest.dropWhile Char.isDigit)
    | _ => return (second, text)
  | _ => some (['0', '0'], text)

def time? (text : Text) : Option (Text × Text) := do
  let (hour, text) ← field? 2 0 23 text
  let (minute, text) ← field? 2 0 59 (← skip? ':' text)
  let (second, text) ← seconds? text
  return (hour ++ ':' :: minute ++ ':' :: second, text)

/-- An offset from universal time. One of no hours and minutes is written with a plus sign. -/
def offset? (text : Text) : Option Text :=
  match text with
  | [] => some []
  | ['Z'] => some ['Z']
  | ['z'] => some ['Z']
  | sign :: rest => do
    guard (sign = '+' ∨ sign = '-')
    let (hour, rest) ← field? 2 0 23 rest
    let (minute, rest) ← field? 2 0 59 (← skip? ':' rest)
    guard rest.isEmpty
    let ahead := sign = '+' ∨ (hour.toNat = 0 ∧ minute.toNat = 0)
    return (if ahead then '+' else '-') :: hour ++ ':' :: minute

/-- The standard spelling of a date, a time, or a date and a time with an optional offset. -/
def read? (text : Text) : Option Text :=
  match date? text with
  | some (date, []) => some date
  | some (date, separator :: rest) => do
    guard (separator = 'T' ∨ separator = 't' ∨ separator = ' ')
    let (time, rest) ← time? rest
    return date ++ 'T' :: time ++ (← offset? rest)
  | none =>
    match time? text with
    | some (time, []) => some time
    | _ => none

end Shorthand.Toml.DateTime
