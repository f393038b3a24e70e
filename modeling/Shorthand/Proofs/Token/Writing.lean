import Shorthand.Proofs.Fragment.Pieces
import Shorthand.Token

/-! # What terms write

A term is written as its operator, its name and its modifiers. Main statement: modifiers behind a name are
never cut from it, whatever operators the contents of their groups hold (`trailing_modifiers`). -/

namespace Shorthand
open Fragment (Trailing)
open Shorthand.Group (isPlain)

/-- No character that has a meaning in an abbreviation. -/
def Delimiter.isBare (c : Char) : Bool :=
  !(structural ++ modifiers ++ [attributesClose, textClose, multiply]).contains c

def Operator.write : Operator → Text
  | .start => []
  | .child => [Delimiter.child]
  | .sibling => [Delimiter.sibling]
  | .climb levels => List.replicate levels Delimiter.climb

/-- The operator is written with at least one character. -/
def Operator.Joins : Operator → Prop
  | .start => False
  | .climb levels => 0 < levels
  | _ => True

instance : (operator : Operator) → Decidable operator.Joins
  | .start => isFalse id
  | .child => isTrue trivial
  | .sibling => isTrue trivial
  | .climb levels => inferInstanceAs (Decidable (0 < levels))

namespace Modifier

def opener : Modifier → Char
  | .id _ => Delimiter.id
  | .className _ => Delimiter.className
  | .attributes _ => Delimiter.attributesOpen
  | .text _ => Delimiter.textOpen

def content : Modifier → Text
  | .id value => value
  | .className value => value
  | .attributes list => list
  | .text content => content

def closing : Modifier → Text
  | .attributes _ => [Delimiter.attributesClose]
  | .text _ => [Delimiter.textClose]
  | _ => []

def write (m : Modifier) : Text := m.opener :: m.content ++ m.closing

/-- Ids and classes are bare, and groups hold no other group. -/
def Writable : Modifier → Prop
  | .id value => ∀ c ∈ value, Delimiter.isBare c = true
  | .className value => ∀ c ∈ value, Delimiter.isBare c = true
  | .attributes list => ∀ c ∈ list, isPlain c = true
  | .text content => ∀ c ∈ content, isPlain c = true

instance : (m : Modifier) → Decidable m.Writable
  | .id value => decidable_of_iff (value.all Delimiter.isBare = true) List.all_eq_true
  | .className value => decidable_of_iff (value.all Delimiter.isBare = true) List.all_eq_true
  | .attributes list => decidable_of_iff (list.all isPlain = true) List.all_eq_true
  | .text content => decidable_of_iff (content.all isPlain = true) List.all_eq_true

/-- The two are not groups of one kind. -/
def Apart (m n : Modifier) : Prop :=
  m.opener = n.opener → ∀ group ∈ Delimiter.groups, group.1 ≠ m.opener

instance (m n : Modifier) : Decidable (m.Apart n) :=
  inferInstanceAs (Decidable (m.opener = n.opener → ∀ group ∈ Delimiter.groups, group.1 ≠ m.opener))

end Modifier

namespace Term

def body (t : Term) : Text := t.name ++ t.modifiers.flatMap Modifier.write

def write (t : Term) : Text := t.operator.write ++ t.body

/-- A term with a bare name and at most one group of each kind. -/
structure Writable (t : Term) : Prop where
  name_ne_nil : t.name ≠ []
  name : ∀ c ∈ t.name, Delimiter.isBare c = true
  count : t.count = 1
  modifiers : ∀ m ∈ t.modifiers, m.Writable
  apart : t.modifiers.Pairwise Modifier.Apart

end Term

/-! ## Bare characters -/

theorem ne_of_isBare {c d : Char} (hc : Delimiter.isBare c = true) (hd : Delimiter.isBare d = false) :
    c ≠ d := by
  rintro rfl
  rw [hc] at hd
  cases hd

theorem isPlain_of_isBare {c : Char} (h : Delimiter.isBare c = true) : isPlain c = true := by
  have ho := ne_of_isBare (d := Delimiter.attributesOpen) h rfl
  have hc := ne_of_isBare (d := Delimiter.attributesClose) h rfl
  have ho' := ne_of_isBare (d := Delimiter.textOpen) h rfl
  have hc' := ne_of_isBare (d := Delimiter.textClose) h rfl
  simp [isPlain, Delimiter.groups, ho, hc, ho', hc']

theorem structural_of_isBare {c : Char} (h : Delimiter.isBare c = true) :
    Delimiter.structural.contains c = false := by
  have h₁ := ne_of_isBare (d := Delimiter.child) h rfl
  have h₂ := ne_of_isBare (d := Delimiter.sibling) h rfl
  have h₃ := ne_of_isBare (d := Delimiter.climb) h rfl
  simp [Delimiter.structural, h₁, h₂, h₃]

theorem modifiers_of_isBare {c : Char} (h : Delimiter.isBare c = true) :
    Delimiter.modifiers.contains c = false := by
  have h₁ := ne_of_isBare (d := Delimiter.id) h rfl
  have h₂ := ne_of_isBare (d := Delimiter.className) h rfl
  have h₃ := ne_of_isBare (d := Delimiter.attributesOpen) h rfl
  have h₄ := ne_of_isBare (d := Delimiter.textOpen) h rfl
  simp [Delimiter.modifiers, h₁, h₂, h₃, h₄]

theorem not_star_of_isBare {text : Text} (h : ∀ c ∈ text, Delimiter.isBare c = true) :
    ∀ c ∈ text, c ≠ Delimiter.multiply := fun c hc => ne_of_isBare (h c hc) rfl

/-! ## Between terms -/

theorem Modifier.write_id (value : Text) : write (.id value) = Delimiter.id :: value :=
  List.append_nil _

theorem Modifier.write_className (value : Text) :
    write (.className value) = Delimiter.className :: value := List.append_nil _

theorem Modifier.Writable.isPlain_content {m : Modifier} (h : m.Writable) :
    ∀ c ∈ m.content, isPlain c = true := by
  cases m with
  | id value => exact fun c hc => isPlain_of_isBare (h c hc)
  | className value => exact fun c hc => isPlain_of_isBare (h c hc)
  | attributes list => exact h
  | text content => exact h

/-- Group openers only begin modifiers. -/
theorem Modifier.Writable.opener_of_mem {m : Modifier} (h : m.Writable) {group : Char × Char}
    (hg : group ∈ Delimiter.groups) (hm : group.1 ∈ m.write) : m.opener = group.1 := by
  rw [Modifier.write, List.cons_append, List.mem_cons, List.mem_append] at hm
  rcases hm with hm | hm | hm
  · exact hm.symm
  · exact absurd hm (Fragment.not_mem_of_isPlain hg h.isPlain_content)
  · have hclosing : ∀ c ∈ m.closing, c = Delimiter.attributesClose ∨ c = Delimiter.textClose := by
      cases m <;> simp [Modifier.closing]
    rcases Group.eq_of_mem_groups hg with ⟨ho, -⟩ | ⟨ho, -⟩ <;> rw [ho] at hm <;>
      rcases hclosing _ hm with h | h <;> exact absurd h (by decide)

theorem Modifier.Apart.not_mem_write {m n : Modifier} (h : m.Apart n) (hn : n.Writable)
    {group : Char × Char} (hg : group ∈ Delimiter.groups) (hm : m.opener = group.1) :
    group.1 ∉ n.write := by
  intro hmem
  have hopener : m.opener = n.opener := hm.trans (hn.opener_of_mem hg hmem).symm
  exact h hopener group hg hm.symm

/-- Behind a name the modifiers of a term are one piece with it, and so is what follows them when it
opens no group. -/
theorem trailing_modifiers {v : Text} (hv : Trailing Delimiter.structural v)
    (hplain : ∀ c ∈ v, isPlain c = true) : ∀ {ms : List Modifier}, (∀ m ∈ ms, m.Writable) →
      ms.Pairwise Modifier.Apart → Trailing Delimiter.structural (ms.flatMap Modifier.write ++ v)
  | [], _, _ => hv
  | m :: ms, hw, hapart => by
    obtain ⟨hne, hapart⟩ := List.pairwise_cons.1 hapart
    have hw' : ∀ n ∈ ms, n.Writable := fun n hn => hw n (List.mem_cons_of_mem m hn)
    have hrest := trailing_modifiers hv hplain hw' hapart
    have hm := hw m List.mem_cons_self
    have hgroup : ∀ group ∈ Delimiter.groups, m.opener = group.1 →
        group.1 ∉ ms.flatMap Modifier.write ++ v := by
      intro group hg ho hmem
      rcases List.mem_append.1 hmem with hmem | hmem
      · obtain ⟨n, hn, hmem⟩ := List.mem_flatMap.1 hmem
        exact (hne n hn).not_mem_write (hw' n hn) hg ho hmem
      · exact Fragment.not_mem_of_isPlain hg hplain hmem
    have hcontent := hm.isPlain_content
    have hbare : ∀ o : Char, isPlain o = true → Delimiter.structural.contains o = false →
        (∀ c ∈ m.content, Delimiter.isBare c = true) →
        Trailing Delimiter.structural (o :: m.content ++ (ms.flatMap Modifier.write ++ v)) := by
      intro o ho hs hc
      refine hrest.append (fun c h => ?_) fun c h => ?_
      · rcases List.mem_cons.1 h with rfl | h
        · exact ho
        · exact hcontent c h
      · rcases List.mem_cons.1 h with rfl | h
        · exact hs
        · exact structural_of_isBare (hc c h)
    rw [List.flatMap_cons, List.append_assoc]
    cases m with
    | id value =>
      rw [Modifier.write_id]
      exact hbare Delimiter.id rfl rfl hm
    | className value =>
      rw [Modifier.write_className]
      exact hbare Delimiter.className rfl rfl hm
    | attributes list =>
      exact hrest.group_append Group.attributes_mem_groups rfl hcontent
        (hgroup _ Group.attributes_mem_groups rfl)
    | text content =>
      exact hrest.group_append Group.text_mem_groups rfl hcontent
        (hgroup _ Group.text_mem_groups rfl)

/-- Terms that can be written as an abbreviation: the first one without an operator. -/
def WritableTerms : List Term → Prop
  | [] => True
  | t :: ts => t.operator = .start ∧ (∀ u ∈ ts, u.operator.Joins) ∧ ∀ u ∈ t :: ts, u.Writable

theorem Term.body_ne_nil {t : Term} (h : t.Writable) : t.body ≠ [] :=
  List.append_ne_nil_of_left_ne_nil h.name_ne_nil _

end Shorthand
