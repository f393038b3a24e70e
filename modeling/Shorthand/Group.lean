import Shorthand.Text

/-! Groups between an opener and the closer that matches it. -/

namespace Shorthand.Group

/-- The number of groups still open after one more character. -/
def depthAfter (opener closer c : Char) (depth : Nat) : Nat :=
  if c = opener then depth + 1 else if c = closer then depth - 1 else depth

/-- Reads up to the closer of a group whose opener has just been passed, with `depth` inner groups
still open. Gives what stands before the closer and what stands after it; nothing when the group is
never closed. -/
def close? (opener closer : Char) : Nat → Text → Option (Text × Text)
  | _, [] => none
  | depth, c :: text =>
    if c = closer ∧ c ≠ opener ∧ depth = 0 then some ([], text)
    else
      (close? opener closer (depthAfter opener closer c depth) text).map
        fun (inner, after) => (c :: inner, after)

/-- The contents of the group whose opener has just been passed, and the text after the group. A
group that is never closed runs to the end. -/
def read (opener closer : Char) (text : Text) : Text × Text :=
  (close? opener closer 0 text).getD (text, [])

theorem append_of_close? {opener closer : Char} {depth : Nat} {text inner after : Text}
    (h : close? opener closer depth text = some (inner, after)) :
    text = inner ++ closer :: after := by
  induction text generalizing depth inner with
  | nil => simp [close?] at h
  | cons c text ih =>
    rw [close?] at h
    split at h
    · rename_i hc
      cases h
      simp [hc.1]
    · obtain ⟨⟨i, a⟩, hi, he⟩ := Option.map_eq_some_iff.1 h
      cases he
      simp [ih hi]

end Shorthand.Group
