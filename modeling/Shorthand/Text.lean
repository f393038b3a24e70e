import Shorthand.Unicode.Classes

/-!
Texts are lists of characters. Offsets into a text count UTF-8 bytes; only an offset between two
characters can be cut at. A text can write a number, in digits of a base.
-/

namespace Shorthand

abbrev Text := List Char

namespace Text

def bytes (text : Text) : List UInt8 := text.flatMap String.utf8EncodeChar

/-- The text whose UTF-8 bytes are given; nothing when they are not well formed. -/
def ofBytes? (bytes : List UInt8) : Option Text :=
  bytes.toByteArray.utf8Decode?.map Array.toList

theorem ofBytes?_bytes (text : Text) : ofBytes? text.bytes = some text := by
  have h : (bytes text).toByteArray = List.utf8Encode text := rfl
  simp [ofBytes?, h]

def byteLength (text : Text) : Nat := text.foldr (fun c length => c.utf8Size + length) 0

@[simp] theorem byteLength_nil : byteLength [] = 0 := rfl

@[simp] theorem byteLength_cons (c : Char) (text : Text) :
    byteLength (c :: text) = c.utf8Size + byteLength text := by
  simp [byteLength]

@[simp] theorem byteLength_append (s t : Text) :
    byteLength (s ++ t) = byteLength s + byteLength t := by
  induction s with
  | nil => simp
  | cons c s ih => simp [ih, Nat.add_assoc]

theorem length_le_byteLength (text : Text) : text.length ≤ text.byteLength := by
  induction text with
  | nil => simp
  | cons c text ih =>
    have := c.utf8Size_pos
    simp only [List.length_cons, byteLength_cons]
    omega

/-- Cuts a text after its first `offset` bytes; nothing when that is past the end or inside a
character. -/
def splitAtByte? : Nat → Text → Option (Text × Text)
  | 0, text => some ([], text)
  | _ + 1, [] => none
  | offset + 1, c :: text =>
    if c.utf8Size ≤ offset + 1 then
      (splitAtByte? (offset + 1 - c.utf8Size) text).map fun (before, after) => (c :: before, after)
    else none

theorem splitAtByte?_append (s t : Text) : splitAtByte? s.byteLength (s ++ t) = some (s, t) := by
  induction s with
  | nil => simp [splitAtByte?]
  | cons c s ih =>
    obtain ⟨k, hk⟩ : ∃ k, c.utf8Size = k + 1 := ⟨c.utf8Size - 1, by have := c.utf8Size_pos; omega⟩
    have hs : byteLength (c :: s) = (byteLength s + k) + 1 := by simp [hk]; omega
    rw [hs, List.cons_append, splitAtByte?]
    simp [hk, show byteLength s + k + 1 - (k + 1) = byteLength s by omega, ih]

/-- The text without the characters at both ends that satisfy `drop`. -/
def trimBy (drop : Char → Bool) (text : Text) : Text :=
  ((text.dropWhile drop).reverse.dropWhile drop).reverse

def trim (text : Text) : Text := trimBy Unicode.isBlank text

/-- What stands before and after the first separator, if there is one. -/
def splitOnce? (separator : Char) (text : Text) : Option (Text × Text) :=
  match text.dropWhile (· ≠ separator) with
  | _ :: after => some (text.takeWhile (· ≠ separator), after)
  | [] => none

/-- The largest width that a text can be padded to. -/
def maxWidth : Nat := 65535

/-- The longest run of a character: the one at the front, and the longest of all. -/
def runs (c : Char) (text : Text) : Nat × Nat :=
  text.foldr (fun x (front, longest) =>
    if x = c then (front + 1, max longest (front + 1)) else (0, longest)) (0, 0)

def longestRun (c : Char) (text : Text) : Nat := (runs c text).2

def ofNat (n : Nat) : Text := Nat.toDigits 10 n

def toNat (digits : Text) : Nat := Nat.ofDigitChars 10 digits 0

@[simp] theorem toNat_ofNat (n : Nat) : toNat (ofNat n) = n := by simp [toNat, ofNat]

namespace Digit

def hex? (c : Char) : Option Nat :=
  if c.isDigit then some (c.toNat - '0'.toNat)
  else if 'a' ≤ c ∧ c ≤ 'f' then some (c.toNat - 'a'.toNat + 10)
  else if 'A' ≤ c ∧ c ≤ 'F' then some (c.toNat - 'A'.toNat + 10)
  else none

def number (base : Nat) (digits : List Nat) : Nat := digits.foldl (fun n d => base * n + d) 0

/-- The number written by hexadecimal digits; nothing for the empty text. -/
def hexNumber? (digits : Text) : Option Nat :=
  if digits.isEmpty then none else (digits.mapM hex?).map (number 16)

/-- The number written by decimal digits; nothing for the empty text. -/
def decimalNumber? (digits : Text) : Option Nat :=
  if digits.isEmpty || !digits.all Char.isDigit then none else some (Text.toNat digits)

def char? (code : Nat) : Option Char :=
  if h : code.isValidChar then some (Char.ofNatAux code h) else none

end Digit
end Text
end Shorthand
