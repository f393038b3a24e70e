import Shorthand.Element

/-!
Templates: elements that are still to be copied, each with its count and the templates nested in it.
How many elements a template gives is counted before any is made, with counts that stay at the largest
64-bit number once they reach it.
-/

namespace Shorthand

def maxTally : Nat := Nat.pow 2 64 - 1

def addCapped (a b : Nat) : Nat := min (a + b) maxTally

def mulCapped (a b : Nat) : Nat := min (a * b) maxTally

/-- An element that is copied `count` times. The nested templates are listed from the newest to the
oldest. -/
structure Template where
  element : Element
  count : Nat
  nested : List Template := []

namespace Template

mutual

def tally : Template → Nat
  | ⟨_, count, nested⟩ => mulCapped (addCapped 1 (tallyAll nested)) count

def tallyAll : List Template → Nat
  | [] => 0
  | t :: older => addCapped (tallyAll older) (tally t)

end

mutual

/-- The copies of a template. The counter is the index of the copy of the nearest repeated template
around it, if there is one; a template that is itself repeated numbers its own copies. -/
def copies (counter : Option Nat) : Template → List Element
  | ⟨element, count, nested⟩ =>
    (List.range count).map fun i =>
      let counter := if 1 < count then some i else counter
      (element.numbered (counter.getD i)).adopt (copiesAll counter nested)

/-- The copies of a list of templates, the oldest first. -/
def copiesAll (counter : Option Nat) : List Template → List Element
  | [] => []
  | t :: older => copiesAll counter older ++ copies counter t

end

mutual

/-- The copies of a template, if numbers can be padded to all their counters. -/
def copies? (counter : Option Nat) : Template → Option (List Element)
  | ⟨element, count, nested⟩ =>
    (List.range count).mapM fun i => do
      let counter := if 1 < count then some i else counter
      let copy ← element.numbered? (counter.getD i)
      return copy.adopt (← copiesAll? counter nested)

def copiesAll? (counter : Option Nat) : List Template → Option (List Element)
  | [] => some []
  | t :: older => do return (← copiesAll? counter older) ++ (← copies? counter t)

end

/-- Nests a template as many levels deep among templates listed from the newest to the oldest: it goes
into the newest one of each level, or beside the templates of the first level that has none. -/
def attach (t : Template) : Nat → List Template → List Template
  | depth + 1, newest :: older =>
    { newest with nested := attach t depth newest.nested } :: older
  | _, siblings => t :: siblings

end Template
end Shorthand
