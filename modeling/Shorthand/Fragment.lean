import Shorthand.Span
import Shorthand.Delimiter

/-!
Fragments of a text. A text is first cut before every operator, the first character excepted. A
fragment that holds a closer and no opener of the same kind was cut inside a group, and is glued to
the fragment before it. A fragment that is a lone climb belongs to the fragment after it. Main
statement: the fragments put together are the text.
-/

namespace Shorthand.Fragment

def opensWith (operators : List Char) : Text → Bool
  | c :: _ => operators.contains c
  | [] => false

/-- Puts a character in front: it joins the first fragment unless that begins with an operator. -/
def cutStep (operators : List Char) (c : Char) : List Text → List Text
  | f :: fs => if opensWith operators f then [c] :: f :: fs else (c :: f) :: fs
  | [] => [[c]]

/-- Cuts a text before every operator but the first character. -/
def cut (operators : List Char) (text : Text) : List Text := text.foldr (cutStep operators) []

/-- Holds a closer of some kind of group and no opener of that kind. -/
def continuesGroup (f : Text) : Bool :=
  Delimiter.groups.any fun (opener, closer) => f.contains closer && !f.contains opener

/-- Puts a fragment in front; the next one is glued to it when it continues a group. -/
def glueStep (f : Text) : List Text → List Text
  | next :: fs => if continuesGroup next then (f ++ next) :: fs else f :: next :: fs
  | [] => [f]

/-- Glues fragments that were cut inside a group, from the right. -/
def glue (fragments : List Text) : List Text := fragments.foldr glueStep []

/-- Puts a fragment in front; a lone climb takes the next fragment in. -/
def climbStep (f : Text) : List Text → List Text
  | next :: fs => if f = [Delimiter.climb] then (f ++ next) :: fs else f :: next :: fs
  | [] => [f]

/-- Folds lone climbs into what follows them, from the right. -/
def foldClimbs (fragments : List Text) : List Text := fragments.foldr climbStep []

def split (operators : List Char) (text : Text) : List Text :=
  foldClimbs (glue (cut operators text))

def spans (start : Nat) : List Text → List Span
  | [] => []
  | f :: fs => ⟨start, start + f.byteLength⟩ :: spans (start + f.byteLength) fs

theorem flatten_cutStep (operators : List Char) (c : Char) (fs : List Text) :
    (cutStep operators c fs).flatten = c :: fs.flatten := by
  unfold cutStep
  split
  · split <;> simp
  · simp

theorem flatten_cut (operators : List Char) (text : Text) : (cut operators text).flatten = text := by
  induction text with
  | nil => rfl
  | cons c text ih => simpa [cut, flatten_cutStep] using ih

theorem flatten_glueStep (f : Text) (fs : List Text) :
    (glueStep f fs).flatten = f ++ fs.flatten := by
  unfold glueStep
  split
  · split <;> simp
  · simp

theorem flatten_glue (fs : List Text) : (glue fs).flatten = fs.flatten := by
  induction fs with
  | nil => rfl
  | cons f fs ih => simpa [glue, flatten_glueStep] using ih

theorem flatten_climbStep (f : Text) (fs : List Text) :
    (climbStep f fs).flatten = f ++ fs.flatten := by
  unfold climbStep
  split
  · split <;> simp
  · simp

theorem flatten_foldClimbs (fs : List Text) : (foldClimbs fs).flatten = fs.flatten := by
  induction fs with
  | nil => rfl
  | cons f fs ih => simpa [foldClimbs, flatten_climbStep] using ih

/-- The fragments put together are the text. -/
theorem flatten_split (operators : List Char) (text : Text) :
    (split operators text).flatten = text := by
  simp [split, flatten_foldClimbs, flatten_glue, flatten_cut]

@[simp] theorem split_nil (operators : List Char) : split operators [] = [] := rfl

end Shorthand.Fragment
