import Shorthand.Text

/-!
Variables in paths: `$NAME`, `${NAME}` with an optional default after `:-`, and `~` for the home
directory. A path with a variable that has no value and no default is left as it is written.
-/

namespace Shorthand.Files

structure Variables where
  values : List (Text × Text) := []
deriving DecidableEq, Repr

namespace Variables

def value? (vars : Variables) (name : Text) : Option Text := vars.values.lookup name

def home? (vars : Variables) : Option Text := vars.value? "HOME".toList

def isNameChar (c : Char) : Bool := Unicode.isAlphanumeric c || c == '_'

/-- The parts before and after the first `:-`. -/
def splitDefault? : Text → Option (Text × Text)
  | ':' :: '-' :: rest => some ([], rest)
  | c :: rest => (splitDefault? rest).map fun (before, after) => (c :: before, after)
  | [] => none

/-- The name and the default written between braces. Without a name there is no default. -/
def braced (inside : Text) : Text × Option Text :=
  match splitDefault? inside with
  | some ([], _) => (inside, none)
  | some (name, default) => (name, some default)
  | none => (inside, none)

/-- What the text after a dollar sign stands for, and what follows it; nothing when it is a variable
without a value. Two dollar signs stand for one, and a dollar sign in front of anything else for
itself. -/
def reference? (vars : Variables) : Text → Option (Text × Text)
  | [] => some (['$'], [])
  | c :: rest =>
    if c = '\x7b' then
      match Text.splitOnce? '\x7d' rest with
      | none => some (['$', '\x7b'], rest)
      | some (inside, after) =>
        let (name, default) := braced inside
        ((vars.value? name).or default).map fun value => (value, after)
    else if isNameChar c then
      (vars.value? ((c :: rest).takeWhile isNameChar)).map fun value =>
        (value, rest.dropWhile isNameChar)
    else if c = '$' then some (['$'], rest)
    else some (['$'], c :: rest)

/-- The names that variables of a text can have; as many as `fuel`. -/
def namesFrom : Nat → Text → List Text
  | 0, _ => []
  | fuel + 1, text =>
    match text.dropWhile (· != '$') with
    | _ :: '\x7b' :: rest =>
      (braced (rest.takeWhile (· != '\x7d'))).1 :: namesFrom fuel rest
    | _ :: rest => rest.takeWhile isNameChar :: namesFrom fuel rest
    | [] => []

def names (text : Text) : List Text := namesFrom (text.length + 1) text

/-- The text with its variables replaced; as many pieces as `fuel`. -/
def replaceFrom? (vars : Variables) : Nat → Text → Option Text
  | 0, _ => some []
  | fuel + 1, text =>
    match text.dropWhile (· != '$') with
    | [] => some text
    | _ :: rest => do
      let (value, rest) ← vars.reference? rest
      return text.takeWhile (· != '$') ++ value ++ (← replaceFrom? vars fuel rest)

/-- The text with its variables replaced; nothing when one has no value. -/
def replace? (vars : Variables) (text : Text) : Option Text :=
  replaceFrom? vars (text.length + 1) text

/-- The path with the home directory in the place of a tilde that stands alone in front. -/
def expandHome (vars : Variables) (path : Text) : Text :=
  match path, vars.home? with
  | '~' :: rest, some home => if rest.isEmpty || rest.head? == some '/' then home ++ rest else path
  | _, _ => path

/-- The path that a written path stands for. A tilde that comes out of a variable is not replaced. -/
def expandPath (vars : Variables) (path : Text) : Text :=
  match vars.replace? path with
  | none => path
  | some replaced =>
    if path.head? != some '~' && replaced.head? == some '~' then replaced
    else vars.expandHome replaced

end Variables
end Shorthand.Files
