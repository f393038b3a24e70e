import Shorthand.Text
import Shorthand.Markup.Names.CapitalsToL
import Shorthand.Markup.Names.CapitalsFromM
import Shorthand.Markup.Names.ToE
import Shorthand.Markup.Names.ToM
import Shorthand.Markup.Names.ToR
import Shorthand.Markup.Names.ToZ

/-!
Character references such as `&lt;` and `&#65;`. Decoding goes over a text once: a reference is what
stands between an ampersand and the first semicolon after it, with no other ampersand in between, and
is left as it is when it is not known. Main statement: a text that was encoded decodes to itself,
whatever stands around it.
-/

namespace Shorthand.Markup.Reference

/-- The references that encoding writes, by name. -/
def basic? : Text → Option Char
  | ['a', 'm', 'p'] => some '&'
  | ['l', 't'] => some '<'
  | ['g', 't'] => some '>'
  | ['q', 'u', 'o', 't'] => some '"'
  | _ => none

/-- The tables of all names. A name that is known to stand for two characters is listed with the first
of them. -/
def tables : List (List (String × Nat)) :=
  [Names.capitalsToL, Names.capitalsFromM, Names.toE, Names.toM, Names.toR, Names.toZ]

/-- What a name stands for. Names are made of letters and digits. -/
def named? (name : Text) : Option Text :=
  match basic? name with
  | some c => some [c]
  | none =>
    if name.all Char.isAlphanum then
      (tables.findSome? (·.lookup (String.ofList name))).map fun code => [Char.ofNat code]
    else none

def isRefusedControl (code : Nat) : Bool :=
  code < 0x20 && code != 0x09 && code != 0x0A && code != 0x0C && code != 0x0D

/-- The character with the given code, if it is a character and not a refused control. -/
def ofCode? (code : Nat) : Option Text :=
  if isRefusedControl code then none else (Text.Digit.char? code).map fun c => [c]

def number? : Text → Option Nat
  | c :: digits =>
    if c = 'x' ∨ c = 'X' then Text.Digit.hexNumber? digits
    else Text.Digit.decimalNumber? (c :: digits)
  | [] => none

/-- What the text between an ampersand and a semicolon stands for. -/
def resolve? : Text → Option Text
  | '#' :: digits => (number? digits).bind ofCode?
  | name => named? name

/-- What has been read from the right: the text up to the next ampersand or semicolon, whether it is
a semicolon, and the decoded text after it. -/
structure Progress where
  pending : Text := []
  closed : Bool := false
  decoded : Text := []

/-- The decoded text, the pending part taken as it is. -/
def Progress.text (p : Progress) : Text :=
  p.pending ++ if p.closed then ';' :: p.decoded else p.decoded

/-- The decoded text when an ampersand stands in front of it. -/
def Progress.afterAmpersand (p : Progress) : Text :=
  match p.closed, resolve? p.pending with
  | true, some text => text ++ p.decoded
  | _, _ => '&' :: p.text

def Progress.cons (c : Char) (p : Progress) : Progress :=
  if c = ';' then { closed := true, decoded := p.text }
  else if c = '&' then { decoded := p.afterAmpersand }
  else { p with pending := c :: p.pending }

def scan (text : Text) : Progress := text.foldr Progress.cons {}

/-- The text with its known references replaced. -/
def decode (text : Text) : Text := (scan text).text

def encodeInText (c : Char) : Text :=
  if c = '&' then ['&', 'a', 'm', 'p', ';']
  else if c = '<' then ['&', 'l', 't', ';']
  else if c = '>' then ['&', 'g', 't', ';']
  else [c]

def encodeInValue (c : Char) : Text :=
  if c = '"' then ['&', 'q', 'u', 'o', 't', ';'] else encodeInText c

@[simp] theorem decode_nil : decode [] = [] := rfl

theorem text_cons {c : Char} (h : c ≠ '&') (p : Progress) :
    (p.cons c).text = c :: p.text := by
  unfold Progress.cons
  split
  · rename_i hc
    simp [Progress.text, hc]
  · simp [Progress.text]

/-- A character other than an ampersand decodes to itself. -/
theorem decode_cons {c : Char} (h : c ≠ '&') (text : Text) :
    decode (c :: text) = c :: decode text := by
  simp only [decode, scan, List.foldr_cons]
  exact text_cons h _

theorem decode_append_of_not_mem {s : Text} (h : '&' ∉ s) (text : Text) :
    decode (s ++ text) = s ++ decode text := by
  induction s with
  | nil => rfl
  | cons c s ih =>
    simp only [List.mem_cons, not_or] at h
    rw [List.cons_append, decode_cons (fun hc => h.1 hc.symm), ih h.2, List.cons_append]

theorem decode_eq_self_of_not_mem {s : Text} (h : '&' ∉ s) : decode s = s := by
  have hdecode := decode_append_of_not_mem h []
  rwa [decode_nil, List.append_nil] at hdecode

theorem decode_encodeInText_append (c : Char) (text : Text) :
    decode (encodeInText c ++ text) = c :: decode text := by
  unfold encodeInText
  split
  · rename_i h
    subst h
    rfl
  · split
    · rename_i h
      subst h
      rfl
    · split
      · rename_i h
        subst h
        rfl
      · rename_i h _ _
        exact decode_cons h text

theorem decode_encodeInValue_append (c : Char) (text : Text) :
    decode (encodeInValue c ++ text) = c :: decode text := by
  unfold encodeInValue
  split
  · rename_i h
    subst h
    rfl
  · exact decode_encodeInText_append c text

/-- Encoded element text decodes to itself, whatever follows. -/
theorem decode_flatMap_encodeInText_append (s text : Text) :
    decode (s.flatMap encodeInText ++ text) = s ++ decode text := by
  induction s with
  | nil => rfl
  | cons c s ih => simp [decode_encodeInText_append, ih]

/-- An encoded attribute value decodes to itself, whatever follows. -/
theorem decode_flatMap_encodeInValue_append (s text : Text) :
    decode (s.flatMap encodeInValue ++ text) = s ++ decode text := by
  induction s with
  | nil => rfl
  | cons c s ih => simp [decode_encodeInValue_append, ih]

end Shorthand.Markup.Reference
