import Shorthand.Fragment
import Shorthand.Group
import Shorthand.Term

/-!
Tokens: terms with the text that writes them. The text of a token is its operators, then its name,
then the rest, so renaming a token changes its text in one place. Main statement: the texts of the
tokens of an abbreviation put together are the abbreviation.
-/

namespace Shorthand

structure Token extends Term where
  /-- Where the token was read. -/
  span : Span
  /-- The operator characters in front of the name. -/
  lead : Text
  /-- What follows the name. -/
  trail : Text
deriving DecidableEq, Repr

namespace Token

def maxCount : Nat := 1000

def raw (token : Token) : Text := token.lead ++ token.name ++ token.trail

def nameRange (token : Token) : Span :=
  ⟨token.lead.byteLength, token.lead.byteLength + token.name.byteLength⟩

def rename (name : Text) (token : Token) : Token := { token with name }

def beforeStar (text : Text) : Text := text.takeWhile (· ≠ Delimiter.multiply)

/-- The count written directly after the first star of a text. -/
def countAfterStar? (text : Text) : Option Nat :=
  match (text.dropWhile (· ≠ Delimiter.multiply)).drop 1 |>.takeWhile Char.isDigit with
  | [] => none
  | digits => some (min (Text.toNat digits) maxCount)

inductive Part where
  | name (value : Text)
  | modifier (m : Modifier)
deriving DecidableEq, Repr

def readGroup (opener closer : Char) (wrap : Text → Modifier) (text : Text) : Part × Option Nat :=
  (.modifier (wrap (Group.read opener closer text).1),
    countAfterStar? (Group.read opener closer text).2)

/-- Reads a fragment and the count at its end. A group is followed by its count, any other fragment
ends at its first star. -/
def readFragment : Text → Part × Option Nat
  | [] => (.name [], none)
  | c :: text =>
    if c = Delimiter.attributesOpen then
      readGroup Delimiter.attributesOpen Delimiter.attributesClose .attributes text
    else if c = Delimiter.textOpen then
      readGroup Delimiter.textOpen Delimiter.textClose .text text
    else if c = Delimiter.id then (.modifier (.id (beforeStar text)), countAfterStar? text)
    else if c = Delimiter.className then
      (.modifier (.className (beforeStar text)), countAfterStar? text)
    else (.name (beforeStar (c :: text)), countAfterStar? (c :: text))

def modifier? (f : Text) : Option Modifier :=
  match (readFragment f).1 with
  | .modifier m => some m
  | .name _ => none

/-- The name written by the fragments of a term; only the first one can be a name. -/
def nameOf : List Text → Text
  | f :: _ =>
    match (readFragment f).1 with
    | .name value => value
    | .modifier _ => []
  | [] => []

/-- Reads the token whose text is `raw` and begins at offset `start`. The first count that is written
holds. -/
def parse (start : Nat) (raw : Text) : Token :=
  let lead := raw.takeWhile Delimiter.structural.contains
  let body := raw.dropWhile Delimiter.structural.contains
  let fragments := Fragment.split Delimiter.modifiers body
  let name := nameOf fragments
  { operator := .ofRun lead
    name
    count := (fragments.findSome? fun f => (readFragment f).2).getD 1
    modifiers := fragments.filterMap modifier?
    span := ⟨start, start + raw.byteLength⟩
    lead
    trail := body.drop name.length }

/-- Reads one token per fragment, the first beginning at `start`. -/
def parseAll (start : Nat) : List Text → List Token
  | [] => []
  | f :: fs => parse start f :: parseAll (start + f.byteLength) fs

def tokenize (abbreviation : Text) : List Token :=
  parseAll 0 (Fragment.split Delimiter.structural abbreviation)

theorem prefix_of_readFragment {f value : Text} (h : (readFragment f).1 = .name value) :
    value <+: f := by
  cases f with
  | nil =>
    cases h
    exact List.nil_prefix
  | cons c text =>
    simp only [readFragment, readGroup] at h
    repeat' split at h
    all_goals cases h
    exact List.takeWhile_prefix _

theorem nameOf_prefix (fs : List Text) : nameOf fs <+: fs.flatten := by
  cases fs with
  | nil => exact List.nil_prefix
  | cons f fs =>
    simp only [nameOf, List.flatten_cons]
    split
    · rename_i value h
      exact (prefix_of_readFragment h).trans (List.prefix_append _ _)
    · exact List.nil_prefix

/-- The text of a token is what it was read from. -/
@[simp] theorem raw_parse (start : Nat) (text : Text) : (parse start text).raw = text := by
  have h := nameOf_prefix
    (Fragment.split Delimiter.modifiers (text.dropWhile Delimiter.structural.contains))
  rw [Fragment.flatten_split] at h
  simp only [parse, raw, List.append_assoc]
  rw [List.prefix_iff_eq_append.1 h, List.takeWhile_append_dropWhile]

theorem map_raw_parseAll (start : Nat) (fs : List Text) :
    (parseAll start fs).map raw = fs := by
  induction fs generalizing start with
  | nil => rfl
  | cons f fs ih => simp [parseAll, ih]

/-- The texts of the tokens put together are the abbreviation. -/
theorem flatten_map_raw_tokenize (abbreviation : Text) :
    ((tokenize abbreviation).map raw).flatten = abbreviation := by
  simp [tokenize, map_raw_parseAll, Fragment.flatten_split]

end Token
end Shorthand
