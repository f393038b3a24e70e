import Shorthand.Attempt
import Shorthand.Element.OfTerm
import Shorthand.Template

/-!
Assembling a forest from terms. Each operator gives its term a depth relative to the term before; a
term with a name becomes a template nested that deep in what has been assembled. The forest is made
only when it is not larger than the limit.
-/

namespace Shorthand

/-- More elements are asked for than allowed. -/
structure Excess where
  elements : Nat
  limit : Nat
deriving DecidableEq, Repr

/-- What has been assembled from the terms so far. -/
structure Assembly where
  /-- The depth of the last term; none before the first. -/
  depth : Option Nat := none
  /-- The top-level templates, the newest first. -/
  templates : List Template := []

namespace Assembly

def maxElements : Nat := 10000

def depthAfter : Option Nat → Operator → Nat
  | none, _ => 0
  | some depth, .start => depth + 1
  | some depth, .child => depth + 1
  | some depth, .sibling => depth
  | some depth, .climb levels => depth - levels

/-- Adds a term. A term without a name has a depth, and nothing else comes of it. -/
def push (a : Assembly) (term : Term) : Assembly :=
  let depth := depthAfter a.depth term.operator
  { depth := some depth
    templates :=
      match Element.ofTerm? term with
      | none => a.templates
      | some element => Template.attach ⟨element, term.count, []⟩ depth a.templates }

def ofTerms (terms : List Term) : Assembly := terms.foldl push {}

/-- The assembled forest, if it is not larger than the limit. The run breaks off where a counter in it is
too wide. -/
def forest (limit : Nat) (a : Assembly) : Attempt Excess (List Element) :=
  let elements := Template.tallyAll a.templates
  if limit < elements then .error ⟨elements, limit⟩
  else .ofOption (Template.copiesAll? none a.templates)

end Assembly
end Shorthand
