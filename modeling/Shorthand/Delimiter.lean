/-! The characters that have a meaning in an abbreviation. -/

namespace Shorthand.Delimiter

/-- Nests inside the element before. -/
def child : Char := '>'

/-- Continues beside the element before. -/
def sibling : Char := '+'

def climb : Char := '^'

def structural : List Char := [child, sibling, climb]

def id : Char := '#'

def className : Char := '.'

def attributesOpen : Char := '['

def attributesClose : Char := ']'

def textOpen : Char := '{'

def textClose : Char := '}'

/-- Marks a repetition count. -/
def multiply : Char := '*'

def modifiers : List Char := [id, className, attributesOpen, textOpen]

def groups : List (Char × Char) :=
  [(attributesOpen, attributesClose), (textOpen, textClose)]

end Shorthand.Delimiter
