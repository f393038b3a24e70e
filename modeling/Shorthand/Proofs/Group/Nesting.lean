import Shorthand.Delimiter
import Shorthand.Text

/-! # Nested groups

The closers still to come are kept as a stack, the innermost first. A text is nested when it can be
read from an empty stack to an empty stack. What is read without getting stuck never holds more
closers of a kind than openers of that kind and closers that were to come before. -/

namespace Shorthand.Group

/-- The closers to come after one more character; nothing when the character is a closer but not the
innermost one to come. -/
def pendingStep (pending : List Char) (c : Char) : Option (List Char) :=
  if c = Delimiter.attributesOpen then some (Delimiter.attributesClose :: pending)
  else if c = Delimiter.textOpen then some (Delimiter.textClose :: pending)
  else if c = Delimiter.attributesClose ∨ c = Delimiter.textClose then
    match pending with
    | closer :: rest => if c = closer then some rest else none
    | [] => none
  else some pending

def pendingAfter (pending : List Char) (text : Text) : Option (List Char) :=
  text.foldlM pendingStep pending

/-- The groups of the text are properly closed and properly nested. -/
def Nested (text : Text) : Prop := pendingAfter [] text = some []

instance (text : Text) : Decidable (Nested text) :=
  inferInstanceAs (Decidable (pendingAfter [] text = some []))

/-- Neither opens nor closes a group. -/
def isPlain (c : Char) : Bool :=
  !Delimiter.groups.any fun (opener, closer) => c == opener || c == closer

theorem attributes_mem_groups :
    (Delimiter.attributesOpen, Delimiter.attributesClose) ∈ Delimiter.groups := by
  decide

theorem text_mem_groups : (Delimiter.textOpen, Delimiter.textClose) ∈ Delimiter.groups := by
  decide

theorem eq_of_mem_groups {opener closer : Char} (h : (opener, closer) ∈ Delimiter.groups) :
    opener = Delimiter.attributesOpen ∧ closer = Delimiter.attributesClose ∨
      opener = Delimiter.textOpen ∧ closer = Delimiter.textClose := by
  simpa [Delimiter.groups] using h

theorem ne_of_isPlain {opener closer : Char} (hg : (opener, closer) ∈ Delimiter.groups) {c : Char}
    (h : isPlain c = true) : c ≠ opener ∧ c ≠ closer := by
  constructor <;> rintro rfl <;> rcases eq_of_mem_groups hg with ⟨rfl, rfl⟩ | ⟨rfl, rfl⟩ <;> cases h

@[simp] theorem pendingAfter_nil (pending : List Char) : pendingAfter pending [] = some pending := rfl

theorem pendingAfter_cons (pending : List Char) (c : Char) (text : Text) :
    pendingAfter pending (c :: text) =
      (pendingStep pending c).bind fun next => pendingAfter next text := rfl

theorem pendingAfter_append (pending : List Char) (s t : Text) :
    pendingAfter pending (s ++ t) =
      (pendingAfter pending s).bind fun next => pendingAfter next t := List.foldlM_append

theorem pendingStep_of_isPlain {c : Char} (h : isPlain c = true) (pending : List Char) :
    pendingStep pending c = some pending := by
  simp only [isPlain, Delimiter.groups, List.any_cons, List.any_nil, Bool.or_false,
    Bool.not_eq_true', Bool.or_eq_false_iff, beq_eq_false_iff_ne] at h
  obtain ⟨⟨h₁, h₂⟩, h₃, h₄⟩ := h
  simp [pendingStep, h₁, h₂, h₃, h₄]

theorem pendingAfter_of_isPlain {text : Text} (h : ∀ c ∈ text, isPlain c = true)
    (pending : List Char) : pendingAfter pending text = some pending := by
  induction text with
  | nil => rfl
  | cons c text ih =>
    rw [pendingAfter_cons, pendingStep_of_isPlain (h c List.mem_cons_self)]
    exact ih fun d hd => h d (List.mem_cons_of_mem _ hd)

theorem pendingStep_opener {opener closer : Char} (hg : (opener, closer) ∈ Delimiter.groups)
    (pending : List Char) : pendingStep pending opener = some (closer :: pending) := by
  rcases eq_of_mem_groups hg with ⟨rfl, rfl⟩ | ⟨rfl, rfl⟩ <;> rfl

theorem pendingStep_closer {opener closer : Char} (hg : (opener, closer) ∈ Delimiter.groups)
    (pending : List Char) : pendingStep (closer :: pending) closer = some pending := by
  rcases eq_of_mem_groups hg with ⟨rfl, rfl⟩ | ⟨rfl, rfl⟩ <;>
    simp [pendingStep, Delimiter.attributesOpen, Delimiter.attributesClose, Delimiter.textOpen,
      Delimiter.textClose]

/-- All that one character can do: open a group, close the innermost one, or neither. -/
theorem pendingStep_cases {pending next : List Char} {c : Char} (h : pendingStep pending c = some next) :
    (∃ closer, (c, closer) ∈ Delimiter.groups ∧ next = closer :: pending) ∨
    (∃ opener, (opener, c) ∈ Delimiter.groups ∧ pending = c :: next) ∨
    (isPlain c = true ∧ next = pending) := by
  unfold pendingStep at h
  split at h
  · rename_i hc
    subst hc
    cases h
    exact .inl ⟨_, attributes_mem_groups, rfl⟩
  · split at h
    · rename_i hc
      subst hc
      cases h
      exact .inl ⟨_, text_mem_groups, rfl⟩
    · rename_i h₁ h₂
      split at h
      · rename_i hc
        split at h
        · split at h
          · rename_i hcloser
            subst hcloser
            cases h
            rcases hc with rfl | rfl
            · exact .inr (.inl ⟨_, attributes_mem_groups, rfl⟩)
            · exact .inr (.inl ⟨_, text_mem_groups, rfl⟩)
          · cases h
        · cases h
      · rename_i hc
        obtain ⟨h₃, h₄⟩ := not_or.1 hc
        cases h
        exact .inr (.inr ⟨by simp [isPlain, Delimiter.groups, h₁, h₂, h₃, h₄], rfl⟩)

/-- A group that holds no other group. -/
theorem nested_group {opener closer : Char} (hg : (opener, closer) ∈ Delimiter.groups) {inner : Text}
    (h : ∀ c ∈ inner, isPlain c = true) : Nested (opener :: inner ++ [closer]) := by
  rw [Nested, List.cons_append, pendingAfter_cons, pendingStep_opener hg, Option.bind_some,
    pendingAfter_append, pendingAfter_of_isPlain h, Option.bind_some, pendingAfter_cons,
    pendingStep_closer hg]
  rfl

theorem Nested.append {s t : Text} (hs : Nested s) (ht : Nested t) : Nested (s ++ t) := by
  rw [Nested, pendingAfter_append, hs, Option.bind_some, ht]

/-! ## Counting openers and closers -/

theorem count_pendingStep {opener closer : Char} (hg : (opener, closer) ∈ Delimiter.groups)
    {pending next : List Char} {c : Char} (h : pendingStep pending c = some next) :
    pending.count closer + [c].count opener = next.count closer + [c].count closer := by
  -- the two kinds share no character
  rcases pendingStep_cases h with ⟨closer', hc, rfl⟩ | ⟨opener', hc, rfl⟩ | ⟨hc, rfl⟩
  · rcases eq_of_mem_groups hg with ⟨rfl, rfl⟩ | ⟨rfl, rfl⟩ <;>
      rcases eq_of_mem_groups hc with ⟨rfl, rfl⟩ | ⟨rfl, rfl⟩ <;>
      simp [Delimiter.attributesOpen, Delimiter.attributesClose, Delimiter.textOpen, Delimiter.textClose]
  · rcases eq_of_mem_groups hg with ⟨rfl, rfl⟩ | ⟨rfl, rfl⟩ <;>
      rcases eq_of_mem_groups hc with ⟨rfl, rfl⟩ | ⟨rfl, rfl⟩ <;>
      simp [Delimiter.attributesOpen, Delimiter.attributesClose, Delimiter.textOpen, Delimiter.textClose]
  · obtain ⟨ho, hcl⟩ := ne_of_isPlain hg hc
    simp [ho, hcl]

theorem count_pendingAfter {opener closer : Char} (hg : (opener, closer) ∈ Delimiter.groups)
    {pending rest : List Char} {text : Text} (h : pendingAfter pending text = some rest) :
    pending.count closer + text.count opener = rest.count closer + text.count closer := by
  induction text generalizing pending with
  | nil => cases h; simp
  | cons c text ih =>
    rw [pendingAfter_cons] at h
    obtain ⟨next, hn, hr⟩ := Option.bind_eq_some_iff.1 h
    have h₁ := count_pendingStep hg hn
    have h₂ := ih hr
    rw [← List.singleton_append, List.count_append, List.count_append]
    omega

/-- Where nothing was to come before, a closer has its opener in the same text. -/
theorem mem_opener_of_mem_closer {opener closer : Char} (hg : (opener, closer) ∈ Delimiter.groups)
    {rest : List Char} {text : Text} (h : pendingAfter [] text = some rest) (hc : closer ∈ text) :
    opener ∈ text := by
  have hcount := count_pendingAfter hg h
  have := List.count_pos_iff.2 hc
  rw [List.count_nil] at hcount
  exact List.count_pos_iff.1 (by omega)

end Shorthand.Group
