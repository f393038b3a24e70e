import Shorthand.Files.Tree

/-!
Patterns for paths. In a part of a pattern `?` stands for one character, `*` for any run of characters
and a bracket class for one of its characters; a part `**` stands for any number of directories.
-/

namespace Shorthand.Files

inductive PatternFault where
  | tooManyStars
  | mixedStars
  | badClass
deriving DecidableEq, Repr

def PatternFault.message : PatternFault → Text
  | .tooManyStars => "wildcards are either regular `*` or recursive `**`".toList
  | .mixedStars => "recursive wildcards must form a single path component".toList
  | .badClass => "invalid range pattern".toList

/-- A fault and the number of characters in front of it. -/
structure PatternError where
  position : Nat
  fault : PatternFault
deriving DecidableEq, Repr

def PatternError.message (e : PatternError) : Text :=
  "Pattern syntax error near position ".toList ++ Text.ofNat e.position ++ [':', ' '] ++ e.fault.message

inductive Wildcard where
  | char (c : Char)
  | anyChar
  | anyRun
  /-- Any number of directories. -/
  | anyDepth
  /-- One of the characters between the bounds of a range, or none of them. -/
  | within (negated : Bool) (ranges : List (Char × Char))
deriving DecidableEq, Repr

namespace Pattern

/-- The ranges of a bracket class; a single character is a range of its own. -/
def ranges : Text → List (Char × Char)
  | a :: '-' :: b :: rest => (a, b) :: ranges rest
  | a :: rest => (a, a) :: ranges rest
  | [] => []

/-- The class whose opening bracket has been passed, and what follows it. The first character of a
class can be a closing bracket. -/
def class? (text : Text) : Option (Wildcard × Text) :=
  let (negated, body) : Bool × Text := match text with
    | '!' :: rest => (true, rest)
    | _ => (false, text)
  match body with
  | [] => none
  | first :: rest =>
    match rest.dropWhile (· != ']') with
    | _ :: after => some (.within negated (ranges (first :: rest.takeWhile (· != ']'))), after)
    | [] => none

/-- Reads a pattern of which `position` characters have been passed, the last of them a slash or none
if `fresh`; as many wildcards as `fuel`. -/
def read : (fuel position : Nat) → (fresh : Bool) → Text → Except PatternError (List Wildcard)
  | 0, _, _, _ => .ok []
  | _, _, _, [] => .ok []
  | fuel + 1, position, fresh, c :: rest =>
    if c = '?' then (read fuel (position + 1) false rest).map (.anyChar :: ·)
    else if c = '*' then
      let stars := (rest.takeWhile (· == '*')).length + 1
      let after := rest.dropWhile (· == '*')
      if 2 < stars then .error ⟨position + 2, .tooManyStars⟩
      else if stars = 1 then (read fuel (position + 1) false after).map (.anyRun :: ·)
      else if !fresh then .error ⟨position - 1, .mixedStars⟩
      else
        match after with
        | [] => .ok [.anyDepth]
        | d :: rest =>
          if d = '/' then (read fuel (position + 3) true rest).map (.anyDepth :: ·)
          else .error ⟨position + 2, .mixedStars⟩
    else if c = '[' then
      match class? rest with
      | some (wildcard, after) =>
        (read fuel (position + 1 + (rest.length - after.length)) false after).map (wildcard :: ·)
      | none => .error ⟨position, .badClass⟩
    else (read fuel (position + 1) (c == '/') rest).map (.char c :: ·)

def parse (pattern : Text) : Except PatternError (List Wildcard) :=
  read pattern.length 0 true pattern

def Wildcard.fits (c : Char) : Wildcard → Bool
  | .char x => x == c
  | .anyChar => true
  | .within negated ranges => (ranges.any fun (a, b) => decide (a ≤ c ∧ c ≤ b)) != negated
  | .anyRun => false
  | .anyDepth => false

/-- What can be left to match where the given wildcards begin: each run in front can be empty. -/
def begins : List Wildcard → List (List Wildcard)
  | [] => [[]]
  | w :: ws => (w :: ws) :: if w = .anyRun then begins ws else []

/-- What can be left to match after a character. -/
def after (c : Char) : List Wildcard → List (List Wildcard)
  | [] => []
  | w :: ws =>
    if w = .anyRun then begins (w :: ws) else if Wildcard.fits c w then begins ws else []

/-- The wildcards match the whole of a name: nothing can be left after its last character. -/
def matchesName (ws : List Wildcard) (name : Text) : Bool :=
  (name.foldl (fun left c => (left.flatMap (after c)).eraseDups) (begins ws)).contains []

/-- The name that wildcards stand for, if they are all plain characters. -/
def literal? (ws : List Wildcard) : Option Text :=
  ws.mapM fun
    | .char c => some c
    | _ => none

/-- The parts of a pattern between slashes, after the leading slash; a slash at the end ends the last
part. There is at least one part, which can be empty. -/
def parts (pattern : Text) : List Text :=
  let body := if Path.isAbsolute pattern then pattern.drop 1 else pattern
  match (List.splitOn '/' body).reverse with
  | [] :: part :: rest => (part :: rest).reverse
  | all => all.reverse

/-- Parts that all stand for any number of directories are one. -/
def joinDepths : List (List Wildcard) → List (List Wildcard)
  | ws :: vs :: rest =>
    if ws = [.anyDepth] ∧ vs = [.anyDepth] then joinDepths (vs :: rest) else ws :: joinDepths (vs :: rest)
  | rest => rest

/-- The path of an entry; entries of the working directory are named without it. -/
def enter (path : Path) (name : Text) : Path := if path = ['.'] then name else Path.join path name

def directoriesBelow (t : Tree) (path : Path) : List Path :=
  (((t.at? path).map Node.innerDirectories).getD []).map (·.foldl enter path)

/-- The single and double dot, where the wildcards match them and begin with a dot. -/
def dotEntries (ws : List Wildcard) (path : Path) : List Path :=
  if ws.head? = some (.char '.') then
    ([['.'], ['.', '.']].filter (matchesName ws)).map (Path.join path)
  else []

def matching (t : Tree) (ws : List Wildcard) (path : Path) : List Path :=
  ((t.names path).filter (matchesName ws)).map (enter path)

def search (t : Tree) : List (List Wildcard) → Path → List Path
  | [], path => [path]
  | ws :: rest, path =>
    if ws = [.anyDepth] then
      let below := directoriesBelow t path
      match rest with
      | [] => below
      | vs :: rest => (path :: below).flatMap fun d => (matching t vs d).flatMap (search t rest)
    else
      match literal? ws with
      | some name =>
        let isDot := name = ['.'] ∨ name = ['.', '.']
        if (isDot ∧ t.isDirectory path) ∨ (¬isDot ∧ t.holds (enter path name)) then
          search t rest (enter path name)
        else []
      | none =>
        if t.isDirectory path then
          (matching t ws path ++ dotEntries ws path).flatMap (search t rest)
        else []

/-- The directory that all matches of a pattern are in, as far as its parts are plain names, and the
depth below it that a match can have; nothing when there is no such bound. -/
def reach (pattern : Text) : Path × Option Nat :=
  let isPlain (part : Text) : Bool := !part.any fun c => c == '?' || c == '*' || c == '['
  let written := parts pattern
  let remaining := written.dropWhile isPlain
  let base := (written.takeWhile isPlain).foldl enter (if Path.isAbsolute pattern then ['/'] else ['.'])
  (base, if remaining.contains ['*', '*'] then none else some remaining.length)

/-- The paths that match a pattern, in no particular order. A pattern that ends in a slash matches
directories alone. -/
def expand (t : Tree) (pattern : Text) : Except PatternError (List Path) := do
  let _ ← parse pattern
  let parts ← (parts pattern).mapM parse
  let found := search t (joinDepths parts) (if Path.isAbsolute pattern then ['/'] else ['.'])
  return if pattern.getLast? == some '/' then found.filter t.isDirectory else found

end Pattern
end Shorthand.Files
