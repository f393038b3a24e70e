import Shorthand.Proofs.Assembly.Padding
import Shorthand.Proofs.Element.Growth

/-! # One more term

A term that is added becomes one more template at the end of what the newest templates hold, so each copy of
the template above it gets new copies behind its children, and all other copies are made as before. Main
statement: with one more term a forest that is refused stays refused, and a forest that is made extends the
one before (`forest_append_term`). -/

namespace Shorthand

namespace Template
open Element (Grows GrowsAll)

/-! ## Tallies -/

theorem addCapped_mono {a b c d : Nat} (hab : a ≤ b) (hcd : c ≤ d) : addCapped a c ≤ addCapped b d := by
  unfold addCapped
  omega

theorem mulCapped_mono {a b : Nat} (h : a ≤ b) (count : Nat) : mulCapped a count ≤ mulCapped b count := by
  have hmul : a * count ≤ b * count := Nat.mul_le_mul_right count h
  unfold mulCapped
  omega

theorem tallyAll_le (ts : List Template) : tallyAll ts ≤ maxTally := by
  cases ts with
  | nil => exact Nat.zero_le _
  | cons t older => exact Nat.min_le_right _ _

/-- One more template never makes the tally smaller. -/
theorem tallyAll_le_attach (t : Template) : ∀ (k : Nat) (ts : List Template),
    tallyAll ts ≤ tallyAll (attach t k ts)
  | 0, ts => Nat.le_min.2 ⟨Nat.le_add_right _ _, tallyAll_le ts⟩
  | _ + 1, [] => Nat.zero_le _
  | k + 1, ⟨element, count, nested⟩ :: older => by
    have hnested := tallyAll_le_attach t k nested
    rw [attach, tallyAll, tallyAll, tally, tally]
    exact addCapped_mono (Nat.le_refl _)
      (mulCapped_mono (addCapped_mono (Nat.le_refl 1) hnested) count)

/-! ## Copies -/

section Copies

variable {element : Element} {new : Element → Prop} (hnew : ∀ index, new (element.numbered index))

include hnew

theorem new_of_mem_copies {count : Nat} {counter : Option Nat} {e : Element}
    (h : e ∈ copies counter ⟨element, count, []⟩) : new e := by
  rw [copies] at h
  obtain ⟨i, -, rfl⟩ := List.mem_map.1 h
  exact hnew _

/-- What is made of the templates grows by copies of the element of one that is attached. -/
theorem growsAll_attach (count : Nat) : ∀ (k : Nat) (ts : List Template) (counter : Option Nat),
    GrowsAll new (copiesAll counter ts) (copiesAll counter (attach ⟨element, count, []⟩ k ts))
  | 0, ts, counter => by
    rw [attach, copiesAll]
    · exact GrowsAll.append_new _ fun _ => new_of_mem_copies hnew
    · exact fun _ _ _ h => nomatch h
  | _ + 1, [], counter => GrowsAll.append_new [] fun _ => new_of_mem_copies hnew
  | k + 1, ⟨host, repeats, nested⟩ :: older, counter => by
    rw [attach, copiesAll, copiesAll, copies, copies]
    -- each copy of the newest template keeps its number, whatever is nested in it
    refine GrowsAll.append_left (GrowsAll.map (fun i => ?_) _) _
    exact (growsAll_attach count k nested _).adopt rfl

end Copies

end Template

namespace Assembly

/-- A copy of the element that the term asks for, numbered in some way. -/
def IsCopyOf (t : Term) (e : Element) : Prop :=
  ∃ element index, Element.ofTerm? t = some element ∧ e = element.numbered index

theorem IsCopyOf.children {t : Term} {e : Element} (h : IsCopyOf t e) : e.children = [] := by
  obtain ⟨element, index, -, rfl⟩ := h
  rfl

/-- A term attaches one template or none. -/
theorem push_templates (a : Assembly) (t : Term) : (a.push t).templates = a.templates ∨
    ∃ element depth, Element.ofTerm? t = some element ∧
      (a.push t).templates = Template.attach ⟨element, t.count, []⟩ depth a.templates := by
  rw [push]
  cases h : Element.ofTerm? t with
  | none => exact .inl rfl
  | some element => exact .inr ⟨element, _, rfl, rfl⟩

theorem tallyAll_le_push (a : Assembly) (t : Term) :
    Template.tallyAll a.templates ≤ Template.tallyAll (a.push t).templates := by
  rcases a.push_templates t with h | ⟨element, depth, -, h⟩
  · exact Nat.le_of_eq (congrArg Template.tallyAll h.symm)
  · rw [h]
    exact Template.tallyAll_le_attach _ _ _

theorem growsAll_push (a : Assembly) (t : Term) : Element.GrowsAll (IsCopyOf t)
    (Template.copiesAll none a.templates) (Template.copiesAll none (a.push t).templates) := by
  rcases a.push_templates t with h | ⟨element, depth, helement, h⟩
  · rw [h]
    exact Element.GrowsAll.refl _
  · rw [h]
    exact Template.growsAll_attach (fun index => ⟨element, index, helement, rfl⟩) _ _ _ _

/-- A forest as one tree, below an element without a name. -/
def tree (forest : List Element) : Element := { Element.root with children := forest }

/-- **One more term only adds.** Terms that ask for too many elements still do so with one more term, and for
no fewer than before. When both forests are made, every element keeps its position, its tag and its
attributes, and its text unless it gets its first children; and what stands at other positions are copies of
the new term's element, each behind all children that the element above it had before. -/
theorem forest_append_term (terms : List Term) (t : Term) (limit : Nat) :
    (∀ excess, (ofTerms terms).forest limit = .error excess →
      ∃ more, (ofTerms (terms ++ [t])).forest limit = .error more ∧ excess.elements ≤ more.elements) ∧
    ∀ forest grown, (ofTerms terms).forest limit = .ok forest →
      (ofTerms (terms ++ [t])).forest limit = .ok grown →
        Element.Extends (IsCopyOf t) (tree forest) (tree grown) := by
  have hpush : ofTerms (terms ++ [t]) = (ofTerms terms).push t := List.foldl_append
  rw [hpush]
  constructor
  · intro excess h
    obtain ⟨hover, rfl⟩ := forest_eq_error h
    have hle := tallyAll_le_push (ofTerms terms) t
    exact ⟨_, if_pos (Nat.lt_of_lt_of_le hover hle), hle⟩
  · intro forest grown hforest hgrown
    rw [forest_eq_ok hforest, forest_eq_ok hgrown]
    refine Element.Grows.extends_tree (fun _ => IsCopyOf.children) ⟨rfl, rfl, ?_, growsAll_push _ t⟩
    unfold Element.textAmong
    split <;> rfl

/-- The terms of `ul*2>li{no $}`. -/
def items : List Term :=
  [{ name := "ul".toList, count := 2 },
    { operator := .child, name := "li".toList, modifiers := [.text "no $".toList] }]

def innermost : Term := { operator := .child, name := "b$".toList }

/-- Elements that are nested like the items, the inner ones as given. -/
def listing (inner : List Element) : List Element :=
  inner.map fun e => { tag := "ul".toList, children := [{ e with tag := "li".toList }] }

theorem forest_append_innermost :
    (∃ more, (ofTerms (items ++ [innermost])).forest 3 = .error more ∧ 4 ≤ more.elements) ∧
    (ofTerms items).forest 6 =
      .ok (listing [{ text := some "no 1".toList }, { text := some "no 2".toList }]) ∧
    (ofTerms (items ++ [innermost])).forest 6 =
      .ok (listing [{ children := [{ tag := "b1".toList }] }, { children := [{ tag := "b2".toList }] }]) ∧
    Element.Extends (IsCopyOf innermost)
      (tree (listing [{ text := some "no 1".toList }, { text := some "no 2".toList }]))
      (tree (listing
        [{ children := [{ tag := "b1".toList }] }, { children := [{ tag := "b2".toList }] }])) :=
  ⟨(forest_append_term items innermost 3).1 ⟨4, 3⟩ rfl, rfl, rfl,
    (forest_append_term items innermost 6).2 _ _ rfl rfl⟩

end Assembly
end Shorthand
