import Shorthand.Delimiter
import Shorthand.Text

/-! Terms: what an abbreviation says about one element and its place beside the term before it. -/

namespace Shorthand

inductive Operator where
  /-- No operator is written: the first term. -/
  | start
  /-- Inside the element before. -/
  | child
  /-- Beside the element before. -/
  | sibling
  /-- As many levels up. -/
  | climb (levels : Nat)
deriving DecidableEq, Repr

/-- The operator written by a run of operator characters: climbs if it holds any, else a sibling
sign, else a child sign. -/
def Operator.ofRun (run : Text) : Operator :=
  if 0 < run.count Delimiter.climb then .climb (run.count Delimiter.climb)
  else if run.contains Delimiter.sibling then .sibling
  else if run.contains Delimiter.child then .child
  else .start

/-- One decoration of a term, without its delimiters. -/
inductive Modifier where
  | id (value : Text)
  | className (value : Text)
  /-- The contents of an attribute group, as written. -/
  | attributes (list : Text)
  | text (content : Text)
deriving DecidableEq, Repr

structure Term where
  operator : Operator := .start
  /-- Empty for a term that stands for no element. -/
  name : Text := []
  /-- How many copies are asked for. -/
  count : Nat := 1
  modifiers : List Modifier := []
deriving DecidableEq, Repr

end Shorthand
