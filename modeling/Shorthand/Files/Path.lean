import Shorthand.Text

/-!
Paths as they are written, and the steps they take. Paths are ordered by their components, so two
spellings of one path that differ in slashes or single dots alone count as equal.
-/

namespace Shorthand.Files

abbrev Path := Text

inductive Step where
  | here
  | up
  | down (name : Text)
deriving DecidableEq, Repr

namespace Path

def isAbsolute (path : Path) : Bool := path.head? == some '/'

def step (part : Text) : Step :=
  if part = [] ∨ part = ['.'] then .here else if part = ['.', '.'] then .up else .down part

def steps (path : Path) : List Step := (List.splitOn '/' path).map step

/-- What stands in a path after its last name or step up: nothing, slashes, or a single dot too. -/
inductive Ending where
  | name
  | slash
  | dot
deriving DecidableEq, Repr

def ending (path : Path) : Ending :=
  let parts := (List.splitOn '/' path).reverse.takeWhile (step · == .here)
  if parts = [] then .name else if ['.'] ∈ parts then .dot else .slash

/-- The path without its last name or step up, and without the separators that stand between them. -/
def parent (path : Path) : Path :=
  let dropHere := List.dropWhile fun part => step part == .here
  let parts := dropHere ((dropHere (List.splitOn '/' path).reverse).drop 1)
  (parts.reverse.intersperse ['/']).flatten

def join (path : Path) (name : Text) : Path :=
  if path.isEmpty || path.getLast? == some '/' then path ++ name else path ++ '/' :: name

/-- Texts in whose order the components of paths are ordered: the root comes first, then the working
directory, then a step up, then names. -/
def componentKeys (path : Path) : List Text :=
  let start := if isAbsolute path then [['\x00']]
    else if (steps path).head? == some .here then [['\x01']] else []
  start ++ (steps path).filterMap fun
    | .here => none
    | .up => some ['\x02']
    | .down name => some ('\x03' :: name)

/-- Comes before, or is made of the same components. -/
def le (p q : Path) : Bool := !decide (componentKeys q < componentKeys p)

/-- Made of the same components. -/
def same (p q : Path) : Bool := componentKeys p == componentKeys q

/-- Removes each path that has the components of the path before it. -/
def dropRepeats : List Path → List Path
  | [] => []
  | [p] => [p]
  | p :: q :: paths => if same p q then dropRepeats (p :: paths) else p :: dropRepeats (q :: paths)

/-- The paths in order, each once. Of several spellings the first is kept. -/
def sorted (paths : List Path) : List Path := dropRepeats (paths.mergeSort le)

end Path
end Shorthand.Files
