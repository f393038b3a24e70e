import Shorthand.Delimiter
import Shorthand.Text.Quoted

/-!
Rules that a text meets before it is read as an abbreviation. They turn away what is plainly not
shorthand: markup, prose, and abbreviations that are still being typed.
-/

namespace Shorthand

inductive Rejection where
  | empty
  /-- It begins with a text that marks it as to be left alone. -/
  | escapePrefix (found : Text)
  | straySpace
  | unbalancedBraces
  | reservedCharacter (c : Char)
  | trailingCharacter (c : Char)
  | unbalancedBrackets
deriving DecidableEq, Repr

def Rejection.message : Rejection → Text
  | .empty => "abbreviation is empty".toList
  | .escapePrefix found =>
    "abbreviation starts with escape prefix ".toList ++ Text.Quoted.ofText found
  | .straySpace => "space outside of an attribute or text modifier".toList
  | .unbalancedBraces => "unbalanced curly braces".toList
  | .reservedCharacter c => "reserved character ".toList ++ Text.Quoted.ofChar c
  | .trailingCharacter c => "abbreviation cannot end with ".toList ++ Text.Quoted.ofChar c
  | .unbalancedBrackets => "unbalanced square brackets".toList

/-- What can be configured about the rules. Both lists are compared without regard to the case of
ASCII letters, and their empty members never match. -/
structure Rules where
  /-- Beginnings of texts that are to be left alone. -/
  escapePrefixes : List Text := ["asp:".toList]
  /-- Beginnings of texts that may end with any character. -/
  verbatimKeywords : List Text := ["place".toList]
deriving DecidableEq, Repr

namespace Rules

/-- Characters one of which stands before every space. -/
def spaceOpeners : List Char := ['[', '{', '"', '.']

/-- Characters one of which stands after every space. -/
def spaceClosers : List Char := [']', '}', '"']

def reserved : List Char := ['<', '|', '@']

/-- The text begins with the keyword, which is not empty; ASCII letters match in any case. -/
def beginsWith (keyword text : Text) : Bool :=
  !keyword.isEmpty && (keyword.map Char.toLower).isPrefixOf (text.map Char.toLower)

/-- A space stands before every opener, or after every closer. -/
def hasStraySpace (text : Text) : Bool :=
  (text.takeWhile (!spaceOpeners.contains ·)).contains ' ' ||
    (text.reverse.takeWhile (!spaceClosers.contains ·)).contains ' '

def balanced (opener closer : Char) (text : Text) : Bool :=
  text.count opener == text.count closer

def canEndWith (c : Char) : Bool :=
  Unicode.isAlphanumeric c || Unicode.isBlank c || c == Delimiter.attributesClose ||
    c == Delimiter.textClose || c == Delimiter.sibling

/-- The last character of a text, when an abbreviation cannot end with it. -/
def badEnd? (text : Text) : Option Char := text.getLast?.filter (!canEndWith ·)

/-- Applies the rules in order; the first one that fails is the answer. -/
def check (rules : Rules) (text : Text) : Except Rejection Unit :=
  if text.isEmpty then .error .empty
  else if let some found := rules.escapePrefixes.find? (beginsWith · text) then
    .error (.escapePrefix found)
  else if hasStraySpace text then .error .straySpace
  else if !balanced Delimiter.textOpen Delimiter.textClose text then .error .unbalancedBraces
  else if let some c := text.find? reserved.contains then .error (.reservedCharacter c)
  else if let (false, some c) := (rules.verbatimKeywords.any (beginsWith · text), badEnd? text) then
    .error (.trailingCharacter c)
  else if !balanced Delimiter.attributesOpen Delimiter.attributesClose text then
    .error .unbalancedBrackets
  else .ok ()

def accepts (rules : Rules) (text : Text) : Bool := (rules.check text).isOk

end Rules
end Shorthand
