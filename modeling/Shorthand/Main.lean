import Shorthand.CommandLine

/-!
The program. It looks at the parts of the file system that the settings name, and hands them to the
command line. Without arguments it reads lines, commits each and shows what it expands to.
-/

namespace Shorthand.Program

def locationOf (path : String) : Files.Location :=
  (Files.Path.steps path.toList).foldl (fun location step =>
    match step with
    | .here => location
    | .up => location.dropLast
    | .down name => location ++ [name]) []

def withDirectory (tree : Files.Tree) (location : Files.Location) : Files.Tree :=
  if (tree.node? location).isSome then tree else tree.put location (.directory [])

/-- Adds what a path leads to, down to the given depth, without the contents of files. -/
partial def scan (depth : Option Nat) (path : String) (tree : Files.Tree) : IO Files.Tree := do
  let file := System.mkFilePath [path]
  if !(← file.pathExists) then return tree
  let location := locationOf path
  if !(← file.isDir) then
    return tree.put location (.file [])
  let tree := withDirectory tree location
  if depth == some 0 then return tree
  try
    (← file.readDir).foldlM
      (fun tree entry => scan (depth.map (· - 1)) entry.path.toString tree) tree
  catch _ => return tree

/-- Adds the contents of the file that a path leads to, if it may be read. -/
def fetch (tree : Files.Tree) (path : Text) : IO Files.Tree := do
  match tree.locate? path with
  | none => return tree
  | some location =>
    if tree.isDirectoryAt location then return tree
    try
      let content ← IO.FS.readBinFile (String.ofList path)
      return tree.put location (.file content.toList)
    catch _ => return tree.put location (.file [] { read := false })

/-- The variables that the given texts mention, and the home directory. -/
def environment (texts : List Text) : IO Files.Variables := do
  let names := "HOME".toList :: texts.flatMap Files.Variables.names
  let values ← names.filterMapM fun name => do
    if name.isEmpty then return none
    return (← IO.getEnv (String.ofList name)).map fun value => (name, value.toList)
  return ⟨values⟩

def absolute (working : String) (path : Files.Path) : String :=
  if Files.Path.isAbsolute path then String.ofList path
  else working ++ "/" ++ String.ofList path

/-- The part of the file system that the settings of the user lead to. -/
def snapshot : IO (Files.Variables × Files.Tree) := do
  let working := (← IO.currentDir).toString
  let tree : Files.Tree := { workingDirectory := locationOf working }
  let tree := withDirectory tree tree.workingDirectory
  let vars ← environment []
  let path := Settings.standardPath vars
  let tree ← fetch (← scan (some 0) (String.ofList path) tree) path
  match Settings.load .standard tree path with
  | .ok (some settings) =>
    let vars ← environment settings.shortcutFiles
    let tree ← settings.shortcutFiles.foldlM (fun tree pattern => do
      let (base, depth) := Files.Pattern.reach (vars.expandPath pattern)
      scan depth (absolute working base) tree) tree
    match Settings.shortcutPaths vars tree settings with
    | .ok paths => return (vars, ← paths.foldlM fetch tree)
    | .error _ => return (vars, tree)
  | _ => return (vars, tree)

def submit (session : Session) (line : String) : Session :=
  session.run (line.toList.map (fun c => { code := .char c }) ++ [{ code := .enter }])

partial def converse (session : Session) : IO Unit := do
  let line ← (← IO.getStdin).getLine
  if line.isEmpty then return
  let after := submit { session with input := [] } (line.trimAsciiEnd).toString
  match after.history.getLast?, after.input with
  | some entry, [] => IO.println (String.ofList entry.markup)
  | _, _ =>
    match after.preview with
    | .ok markup => IO.println (String.ofList markup)
    | .error e => IO.println (String.ofList e.message)
    | .aborted => return
  converse after

end Shorthand.Program

open Shorthand Shorthand.Program in
def main (arguments : List String) : IO UInt32 := do
  let (vars, tree) ← snapshot
  let texts := arguments.map String.toList
  let input ← if texts == [['-']] then (← IO.getStdin).readBinToEnd else pure .empty
  match CommandLine.run vars tree "xen-coding".toList texts input.toList with
  | .finished result =>
    (← IO.getStdout).putStr (String.ofList result.output)
    (← IO.getStderr).putStr (String.ofList result.errors)
    return UInt32.ofNat result.status
  | .aborted output =>
    (← IO.getStdout).putStr (String.ofList output)
    return 101
  | .session start =>
    converse start
    return 0
