import Shorthand.Alias.Table
import Shorthand.Assembly
import Shorthand.Markup.Render
import Shorthand.Rules

/-!
Expansion of an abbreviation: the rules are checked, the tokens read, their names resolved, the forest
assembled and its markup written.
-/

namespace Shorthand

inductive ExpansionError where
  | rejected (r : Rejection)
  /-- No element results. -/
  | nothing
  | excess (e : Excess)
deriving DecidableEq, Repr

def ExpansionError.message : ExpansionError → Text
  | .rejected r => "not an expandable abbreviation: ".toList ++ r.message
  | .nothing => "abbreviation expands to nothing".toList
  | .excess e =>
    "abbreviation would produce ".toList ++ Text.ofNat e.elements ++ " elements, more than ".toList ++
      Text.ofNat e.limit

structure Expander where
  aliases : Alias.Table := .stock
  rules : Rules := {}
  indent : Text := "    ".toList

namespace Expander

/-- The terms of an abbreviation, their names resolved. -/
def terms (x : Expander) (abbreviation : Text) : List Term :=
  (Token.tokenize abbreviation).map fun token => (x.aliases.resolve token).toTerm

def forest (x : Expander) (abbreviation : Text) : Attempt ExpansionError (List Element) :=
  match x.rules.check abbreviation with
  | .error r => .error (.rejected r)
  | .ok () =>
    match (Assembly.ofTerms (x.terms abbreviation)).forest Assembly.maxElements with
    | .error e => .error (.excess e)
    | .aborted => .aborted
    | .ok [] => .error .nothing
    | .ok forest => .ok forest

def expand (x : Expander) (abbreviation : Text) : Attempt ExpansionError Text :=
  match x.forest abbreviation with
  | .error e => .error e
  | .aborted => .aborted
  | .ok forest =>
    match Markup.render x.indent forest with
    | [] => .error .nothing
    | markup => .ok markup

end Expander
end Shorthand
