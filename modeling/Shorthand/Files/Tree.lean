import Shorthand.Files.Node
import Shorthand.Files.Path

/-!
A tree of files and directories, what can be asked of it by paths, and how a file is written into it.
-/

namespace Shorthand.Files

inductive Problem where
  | notFound
  | isDirectory
  | notDirectory
  | alreadyExists
  | nameTooLong
  | nulInName
  | permissionDenied
  | invalidText
deriving DecidableEq, Repr

def Problem.message : Problem → Text
  | .notFound => "No such file or directory (os error 2)".toList
  | .isDirectory => "Is a directory (os error 21)".toList
  | .notDirectory => "Not a directory (os error 20)".toList
  | .alreadyExists => "File exists (os error 17)".toList
  | .nameTooLong => "File name too long (os error 36)".toList
  | .nulInName => "file name contained an unexpected NUL byte".toList
  | .permissionDenied => "Permission denied (os error 13)".toList
  | .invalidText => "stream did not contain valid UTF-8".toList

def maxNameLength : Nat := 255

def maxPathLength : Nat := 4095

def Path.fault? (path : Path) : Option Problem :=
  if '\x00' ∈ path then some .nulInName
  else if maxPathLength < path.byteLength then some .nameTooLong
  else none

/-- The nodes below the root directory, the directory in which relative paths begin, and what may be done
with a file once it is made. -/
structure Tree where
  root : Node := .directory []
  workingDirectory : Location := []
  newFile : Access := {}

namespace Tree

def node? (t : Tree) (location : Location) : Option Node := t.root.at? location

def isDirectoryAt (t : Tree) (location : Location) : Bool := (t.node? location).any Node.isDirectory

def put (location : Location) (node : Node) (t : Tree) : Tree :=
  { t with root := Node.put node location t.root }

/-- Takes a step from a directory; nothing when it is no directory or the step leads nowhere. -/
def walk? (t : Tree) (location : Location) (step : Step) : Option Location :=
  if t.isDirectoryAt location then
    match step with
    | .here => some location
    | .up => some location.dropLast
    | .down name => if (t.node? (location ++ [name])).isSome then some (location ++ [name]) else none
  else none

def start (t : Tree) (path : Path) : Location :=
  if Path.isAbsolute path then [] else t.workingDirectory

def locate? (t : Tree) (path : Path) : Option Location :=
  if path.isEmpty || (Path.fault? path).isSome then none
  else (Path.steps path).foldlM t.walk? (t.start path)

def at? (t : Tree) (path : Path) : Option Node := (t.locate? path).bind t.node?

def holds (t : Tree) (path : Path) : Bool := (t.at? path).isSome

def isDirectory (t : Tree) (path : Path) : Bool := (t.at? path).any Node.isDirectory

def names (t : Tree) (path : Path) : List Text :=
  ((t.at? path).map fun node => node.entries.map (·.1)).getD []

def read (t : Tree) (path : Path) : Except Problem Text :=
  match Path.fault? path, t.at? path with
  | some problem, _ => .error problem
  | none, none => .error .notFound
  | none, some (.directory _) => .error .isDirectory
  | none, some (.file content access) =>
    if access.read then
      match Text.ofBytes? content with
      | none => .error .invalidText
      | some text => .ok text
    else .error .permissionDenied

/-- How far directories have been made: where the next one begins, and whether one was missing. -/
structure Progress where
  tree : Tree
  location : Location
  made : Bool := false

/-- Takes one of the steps along which directories are made. A file in the way is told as an existing
file by the last step and once a directory was made, by the others as no directory. -/
def Progress.take (isLast : Bool) (p : Progress) (step : Step) : Except Problem Progress :=
  if p.tree.isDirectoryAt p.location then
    match step with
    | .here => .ok p
    | .up => .ok { p with location := p.location.dropLast }
    | .down name =>
      let next := p.location ++ [name]
      if maxNameLength < name.byteLength then .error .nameTooLong
      else
        match p.tree.node? next with
        | some (.directory _) => .ok { p with location := next }
        | some (.file _ _) => .error (if isLast || p.made then .alreadyExists else .notDirectory)
        | none => .ok ⟨p.tree.put next (.directory []), next, true⟩
  else .error .notDirectory

def Progress.takeAll : Progress → List Step → Except Problem Progress
  | p, [] => .ok p
  | p, step :: steps =>
    match p.take (steps.all (· == .here)) step with
    | .error problem => .error problem
    | .ok next => next.takeAll steps

/-- Makes the directories along a list of steps that are not there; gives where the steps end. -/
def makeDirectories (location : Location) (steps : List Step) (t : Tree) :
    Except Problem (Tree × Location) :=
  (Progress.takeAll ⟨t, location, false⟩ steps).map fun p => (p.tree, p.location)

/-- Writes a file into a directory. Only a path that ends with its name makes a new file; a file that is
there is open to what it was open to. -/
def writeAt (content : List UInt8) (ending : Path.Ending) (directory : Location) (name : Text)
    (t : Tree) : Except Problem Tree :=
  let location := directory ++ [name]
  if !t.isDirectoryAt directory then .error .notDirectory
  else if ending = .slash then .error .isDirectory
  else if maxNameLength < name.byteLength then .error .nameTooLong
  else
    match ending, t.node? location with
    | _, some (.directory _) => .error .isDirectory
    | .dot, some (.file _ _) => .error .notDirectory
    | .dot, none => .error .notFound
    | _, some (.file _ access) =>
      if access.write then .ok (t.put location (.file content access)) else .error .permissionDenied
    | _, none => .ok (t.put location (.file content t.newFile))

/-- Writes a file and the directories it stands in. -/
def write (content : List UInt8) (path : Path) (t : Tree) : Except Problem Tree :=
  let steps := (Path.steps path).filter (· != .here)
  if path.isEmpty then .error .notFound
  else
    match Path.fault? (Path.parent path) with
    | some problem => .error problem
    | none =>
      match t.makeDirectories (t.start path) steps.dropLast with
      | .error problem => .error problem
      | .ok (t, directory) =>
        match Path.fault? path, steps.getLast? with
        | some problem, _ => .error problem
        | none, some (.down name) => t.writeAt content (Path.ending path) directory name
        | none, _ => .error .isDirectory

end Tree
end Shorthand.Files
