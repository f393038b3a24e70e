import Shorthand.Expansion

/-!
An interactive session: a line of input with a preview of its expansion, and a history of the
expansions that were committed.
-/

namespace Shorthand

/-- What a key stands for. Keys without a meaning here are all alike. -/
inductive KeyCode where
  | escape
  | enter
  | tab
  | up
  | down
  | backspace
  | char (c : Char)
  | other
deriving DecidableEq, Repr

inductive KeyAction where
  | press
  | hold
  | release
deriving DecidableEq, Repr

structure KeyEvent where
  code : KeyCode
  /-- The control key is held. -/
  control : Bool := false
  action : KeyAction := .press
deriving DecidableEq, Repr

structure HistoryEntry where
  abbreviation : Text
  markup : Text
deriving DecidableEq, Repr

structure Session where
  expander : Expander
  input : Text := []
  /-- The committed expansions, the oldest first. -/
  history : List HistoryEntry := []
  /-- The entry of the history that was stepped to. -/
  selected : Option Nat := none

namespace Session

def preview (s : Session) : Attempt ExpansionError Text := s.expander.expand s.input

/-- Moves the expansion of the input into the history. Input without an expansion stays. -/
def commit (s : Session) : Session :=
  match s.preview with
  | .ok markup =>
    { s with input := [], history := s.history ++ [⟨s.input, markup⟩], selected := none }
  | .error _ => s
  | .aborted => s

/-- Steps to an entry of the history and takes its abbreviation for input. -/
def select (index : Nat) (s : Session) : Session :=
  { s with
    selected := some index
    input := (s.history[index]?.map (·.abbreviation)).getD s.input }

/-- Steps to the entry before, at first to the newest; the oldest has none before it. -/
def previous (s : Session) : Session :=
  if s.history.isEmpty then s
  else
    match s.selected with
    | none => s.select (s.history.length - 1)
    | some index => s.select (index - 1)

/-- Steps to the entry after; after the newest comes an empty input. -/
def next (s : Session) : Session :=
  match s.selected with
  | none => s
  | some index =>
    if index + 1 < s.history.length then s.select (index + 1)
    else { s with selected := none, input := [] }

def quits (event : KeyEvent) : Bool :=
  event.action == .press &&
    (event.code == .escape || (event.code == .char 'c' && event.control))

/-- The session after an event. Only presses count, and those that end it change nothing. -/
def handle (s : Session) (event : KeyEvent) : Session :=
  if event.action != .press || quits event then s
  else
    match event.code with
    | .enter => s.commit
    | .tab => s.commit
    | .up => s.previous
    | .down => s.next
    | .backspace => { s with input := s.input.dropLast }
    | .char c => { s with input := s.input ++ [c] }
    | .escape => s
    | .other => s

def run (s : Session) (events : List KeyEvent) : Session := events.foldl handle s

end Session
end Shorthand
