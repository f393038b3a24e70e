import Shorthand.Alias.Table
import Shorthand.LineStream
import Shorthand.Session
import Shorthand.Settings.Storage

/-! The command line: what is written for which arguments, and how the run ends. -/

namespace Shorthand.CommandLine

structure Result where
  status : Nat := 0
  output : Text := []
  errors : Text := []
deriving DecidableEq, Repr

inductive Outcome where
  | finished (result : Result)
  /-- The run breaks off after some output. -/
  | aborted (output : Text)
  /-- Without arguments a session begins. -/
  | session (start : Session)

def usage (program : Text) : Text :=
  "Usage: ".toList ++ program ++ " [abbreviation | - | --aliases]\n\n".toList ++
    "  <abbreviation>  print the expansion of one abbreviation\n".toList ++
    "  -               expand every line read from stdin\n".toList ++
    "  --aliases       list the aliases in effect\n".toList ++
    "  (none)          open the interactive preview\n".toList

def failure (message : Text) : Result :=
  { status := 1, errors := "Error: ".toList ++ message ++ ['\n'] }

def expandOne (x : Expander) (abbreviation : Text) : Outcome :=
  match x.expand abbreviation with
  | .ok markup => .finished { output := markup ++ ['\n'] }
  | .error e => .finished (failure e.message)
  | .aborted => .aborted []

/-- Expands all lines of the standard input. What was written before a failure stays written. -/
def expandStream (x : Expander) (input : List UInt8) : Outcome :=
  let transcript := LineStream.run x input
  match transcript.ending with
  | .finished => .finished { output := transcript.output }
  | .unreadable =>
    .finished { failure Files.Problem.invalidText.message with output := transcript.output }
  | .aborted => .aborted transcript.output

def listAliases (x : Expander) : Outcome :=
  match x.aliases.listing? with
  | some listing => .finished { output := listing }
  | none => .aborted []

def runWith (x : Expander) (program : Text) (arguments : List Text) (input : List UInt8) : Outcome :=
  match arguments with
  | [] => .session { expander := x }
  | first :: rest =>
    if first = "-h".toList ∨ first = "--help".toList then .finished { errors := usage program }
    else if !rest.isEmpty then .finished { status := 1, errors := usage program }
    else if first = "--aliases".toList then listAliases x
    else if first = "-".toList then expandStream x input
    else expandOne x first

/-- Runs the program. The settings are loaded first, whatever the arguments are. -/
def run (vars : Files.Variables) (tree : Files.Tree) (program : Text) (arguments : List Text)
    (input : List UInt8) : Outcome :=
  let path := Settings.standardPath vars
  match Settings.load .standard tree path with
  | .error problem =>
    .finished (failure ("Failed to load config file: ".toList ++ problem.message))
  | .ok settings =>
    match Settings.expander vars tree settings with
    | .error problem =>
      let result := failure ("Failed to load shortcuts: ".toList ++ problem.message)
      .finished
        { result with
          errors := result.errors ++ "Check shortcut_files in ".toList ++ path ++ ['\n'] }
    | .ok x => runWith x program arguments input

end Shorthand.CommandLine
