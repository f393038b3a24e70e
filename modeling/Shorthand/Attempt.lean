/-! Results of operations that can fail, or can break off the run that they are part of. -/

namespace Shorthand

inductive Attempt (ε α : Type) where
  | ok (value : α)
  | error (cause : ε)
  /-- The run breaks off here, and there is no result. -/
  | aborted
deriving DecidableEq, Repr

namespace Attempt

variable {ε α : Type}

def isOk : Attempt ε α → Bool
  | ok _ => true
  | error _ => false
  | aborted => false

def toOption : Attempt ε α → Option α
  | ok value => some value
  | error _ => none
  | aborted => none

/-- The value, if there is one; the run breaks off without. -/
def ofOption : Option α → Attempt ε α
  | some value => ok value
  | none => aborted

theorem toOption_eq_some_iff {r : Attempt ε α} {value : α} : r.toOption = some value ↔ r = ok value := by
  cases r <;> simp [toOption]

end Attempt
end Shorthand
