import Shorthand.Element.AttributeList
import Shorthand.Term
import Shorthand.Unicode.Lowercase

/-! The element that a term asks for: its modifiers applied from left to right. -/

namespace Shorthand

/-- The attribute that an id gives a value to. -/
def nameAttribute : Text := "x:Name".toList

/-- The attribute that a class gives a value to. -/
def styleAttribute : Text := "Style".toList

def styleReference (className : Text) : Text :=
  "\x7bDynamicResource ".toList ++ className ++ ['\x7d']

def Modifier.assignments : Modifier → List Attribute
  | .id value => [(nameAttribute, value)]
  | .className value => [(styleAttribute, styleReference value)]
  | .attributes list => AttributeList.parse list
  | .text _ => []

namespace Element

def apply (e : Element) (m : Modifier) : Element :=
  match m with
  | .text content => e.setText content
  | _ => m.assignments.foldl (fun e (name, value) => e.setAttribute name value) e

/-- Lower-case names of the elements that cannot be without some attributes. -/
def placeholderTags : List Text := ["setter".toList, "trigger".toList]

def placeholderAttributes : List Text := ["Property".toList, "Value".toList]

def assignIfMissing (e : Element) (name : Text) : Element :=
  if (e.attribute? name).isNone then e.setAttribute name [] else e

/-- Completes the attributes that an element of this tag cannot be without. -/
def withPlaceholders (e : Element) : Element :=
  if placeholderTags.contains (Unicode.lowercase e.tag) then
    placeholderAttributes.foldl assignIfMissing e
  else e

/-- The element of a term; a term without a name has none. -/
def ofTerm? (term : Term) : Option Element :=
  (create? term.name).map fun e => (term.modifiers.foldl apply e).withPlaceholders

end Element
end Shorthand
