import Shorthand.Text

/-!
Files and directories. A directory holds further nodes under names; a location is the list of names
that leads from a directory to a node below it. A file can be closed to reading or to writing.
-/

namespace Shorthand.Files

structure Access where
  read : Bool := true
  write : Bool := true
deriving DecidableEq, Repr

inductive Node where
  | file (content : List UInt8) (access : Access := {})
  | directory (entries : List (Text × Node))

/-- The names that lead from a directory to a node below it. -/
abbrev Location := List Text

namespace Node

def isDirectory : Node → Bool
  | .file _ _ => false
  | .directory _ => true

def entries : Node → List (Text × Node)
  | .file _ _ => []
  | .directory entries => entries

def at? : Location → Node → Option Node
  | [], node => some node
  | name :: location, node => (node.entries.lookup name).bind (at? location)

/-- Gives a name a node; a name that has one keeps its place. -/
def assign (name : Text) (node : Node) : List (Text × Node) → List (Text × Node)
  | [] => [(name, node)]
  | (n, old) :: rest => if n = name then (n, node) :: rest else (n, old) :: assign name node rest

/-- Puts a node at a location, in the place of the one that is there. Directories that are missing on
the way are made; nothing is put below a file. -/
def put (new : Node) : Location → Node → Node
  | [], _ => new
  | _ :: _, .file content access => .file content access
  | name :: location, .directory entries =>
    .directory (assign name (put new location ((entries.lookup name).getD (.directory []))) entries)

mutual

/-- The locations of all directories inside a node, each before those inside it. -/
def innerDirectories : Node → List Location
  | .file _ _ => []
  | .directory entries => directoriesAmong entries

def directoriesAmong : List (Text × Node) → List Location
  | [] => []
  | (name, node) :: rest =>
    (if node.isDirectory then [name] :: (innerDirectories node).map (name :: ·) else []) ++
      directoriesAmong rest

end

@[simp] theorem at?_nil (node : Node) : at? [] node = some node := rfl

theorem lookup_assign (name : Text) (node : Node) (entries : List (Text × Node)) :
    (assign name node entries).lookup name = some node := by
  induction entries with
  | nil => simp [assign]
  | cons entry rest ih =>
    obtain ⟨n, old⟩ := entry
    by_cases h : n = name
    · simp [assign, h]
    · simp [assign, h, List.lookup_cons, ih, show (name == n) = false by simpa using Ne.symm h]

end Node
end Shorthand.Files
