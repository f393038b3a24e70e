import Shorthand.Proofs.Assembly.Padding
import Shorthand.Proofs.Tree.Shallower

/-! # The plan of an assembly

An assembly holds its templates newest first. Its plan is the same forest oldest first, each node with
its element and its count. Adding a template puts one more row at the end of the plan's rows; counting
elements gives the size of the expanded plan, up to the largest tally; and the copies that are made have
the shape of the expanded plan. -/

namespace Shorthand

namespace Template

mutual

/-- The template as a tree of elements and their counts, the oldest first. -/
def tree : Template → Tree (Element × Nat)
  | ⟨element, count, nested⟩ => .node (element, count) (trees nested)

def trees : List Template → List (Tree (Element × Nat))
  | [] => []
  | t :: older => trees older ++ [tree t]

end

/-- How many templates lie on the path from the newest one to the newest one nested in it, and so on. -/
def spine : List Template → Nat
  | [] => 0
  | ⟨_, _, nested⟩ :: _ => spine nested + 1

/-- A template that is attached adds its rows last. -/
theorem rowsAll_attach (t : Template) : ∀ (k : Nat) (ts : List Template) (depth : Nat),
    Tree.rowsAll depth (trees (attach t k ts)) =
      Tree.rowsAll depth (trees ts) ++ Tree.rows (depth + min k (spine ts)) (tree t)
  | 0, ts, depth => by
    simp [attach, trees, Tree.rowsAll_append, Tree.rowsAll]
  | _ + 1, [], depth => by
    simp [attach, trees, spine, Tree.rowsAll]
  | k + 1, ⟨element, count, nested⟩ :: older, depth => by
    have hmin : depth + min (k + 1) (spine nested + 1) = depth + 1 + min k (spine nested) := by omega
    rw [attach, trees, trees, Tree.rowsAll_append, Tree.rowsAll_append, tree, tree, spine, hmin]
    simp only [Tree.rowsAll, Tree.rows, List.append_nil]
    rw [rowsAll_attach t k nested (depth + 1), List.append_assoc, List.cons_append]

theorem spine_attach (element : Element) (count : Nat) : ∀ (k : Nat) (ts : List Template),
    spine (attach ⟨element, count, []⟩ k ts) = min k (spine ts) + 1
  | 0, ts => by simp [attach, spine]
  | _ + 1, [] => by simp [attach, spine]
  | k + 1, ⟨_, _, nested⟩ :: older => by
    rw [attach, spine, spine, spine_attach element count k nested]
    omega

/-! ## Tallies -/

theorem min_min_mul (a c : Nat) : min (min a maxTally * c) maxTally = min (a * c) maxTally := by
  rcases Nat.eq_zero_or_pos c with rfl | hc
  · simp
  · rcases Nat.le_total a maxTally with ha | ha
    · rw [Nat.min_eq_left ha]
    · have h₁ : maxTally ≤ maxTally * c := Nat.le_mul_of_pos_right _ hc
      have h₂ : maxTally ≤ a * c := Nat.le_trans ha (Nat.le_mul_of_pos_right _ hc)
      rw [Nat.min_eq_right ha, Nat.min_eq_right h₁, Nat.min_eq_right h₂]

mutual

/-- The tally is the number of nodes after expansion, up to the largest tally. -/
theorem tally_eq : ∀ t : Template,
    tally t = min (Tree.sizeAll (Tree.expand (·.2) (tree t))) maxTally
  | ⟨element, count, nested⟩ => by
    have hcap : addCapped 1 (tallyAll nested) =
        min (Tree.sizeAll (Tree.expandAll (·.2) (trees nested)) + 1) maxTally := by
      rw [addCapped, tallyAll_eq nested]
      omega
    rw [tally, mulCapped, hcap, min_min_mul, tree, Tree.expand, Tree.sizeAll_replicate, Tree.size,
      Nat.mul_comm]

theorem tallyAll_eq : ∀ ts : List Template,
    tallyAll ts = min (Tree.sizeAll (Tree.expandAll (·.2) (trees ts))) maxTally
  | [] => rfl
  | t :: older => by
    rw [tallyAll, addCapped, tallyAll_eq older, tally_eq t, trees, Tree.expandAll_append,
      Tree.sizeAll_append, Tree.expandAll, Tree.expandAll, List.append_nil]
    omega

end

end Template

/-! ## The shape of the copies -/

namespace Tree

variable {α β : Type}

mutual

/-- The element's tag is the name of the label with its counters replaced, and its children are stamped
in the same way from what is below. -/
def Stamped (name : α → Text) : Tree α → Element → Prop
  | .node label below, e =>
    (∃ index, e.tag = Text.Numbering.number index (name label)) ∧ StampedAll name below e.children

def StampedAll (name : α → Text) : List (Tree α) → List Element → Prop
  | [], [] => True
  | t :: ts, e :: es => Stamped name t e ∧ StampedAll name ts es
  | _, _ => False

end

theorem StampedAll.append {name : α → Text} {us : List (Tree α)} {fs : List Element}
    (hu : StampedAll name us fs) : ∀ {ts : List (Tree α)} {es : List Element},
      StampedAll name ts es → StampedAll name (ts ++ us) (es ++ fs)
  | [], [], _ => hu
  | _ :: _, _ :: _, ⟨h, hs⟩ => ⟨h, hu.append hs⟩

theorem stampedAll_replicate {name : α → Text} {t : Tree α} {f : Nat → Element}
    (h : ∀ i, Stamped name t (f i)) : ∀ is : List Nat,
      StampedAll name (List.replicate is.length t) (is.map f)
  | [] => trivial
  | i :: is => ⟨h i, stampedAll_replicate h is⟩

mutual

theorem stamped_map {name : β → Text} (f : α → β) : ∀ {t : Tree α} {e : Element},
    Stamped name (map f t) e ↔ Stamped (fun a => name (f a)) t e
  | .node label below, e => by rw [map, Stamped, Stamped, stampedAll_mapAll f]

theorem stampedAll_mapAll {name : β → Text} (f : α → β) : ∀ {ts : List (Tree α)} {es : List Element},
    StampedAll name (mapAll f ts) es ↔ StampedAll (fun a => name (f a)) ts es
  | [], [] => Iff.rfl
  | [], _ :: _ => Iff.rfl
  | _ :: _, [] => Iff.rfl
  | t :: ts, e :: es => by rw [mapAll, StampedAll, StampedAll, stamped_map f, stampedAll_mapAll f]

end

/-- No forest has the shapes of two forests one of which is shallower. -/
theorem Shallower.not_stampedAll {name : α → Text} {ts us : List (Tree α)} (h : Shallower ts us) :
    ∀ {es : List Element}, StampedAll name ts es → ¬ StampedAll name us es := by
  induction h with
  | nil =>
    intro es hts hus
    cases es with
    | nil => exact hus
    | cons e es => exact hts
  | inside _ ih =>
    intro es hts hus
    cases es with
    | nil => exact hts
    | cons e es =>
      obtain ⟨⟨-, hbelow⟩, -⟩ := hts
      obtain ⟨⟨-, hbelow'⟩, -⟩ := hus
      exact ih hbelow hbelow'
  | after _ ih =>
    intro es hts hus
    cases es with
    | nil => exact hts
    | cons e es => exact ih hts.2 hus.2

end Tree

namespace Element

@[simp] theorem numbered_children (index : Nat) (e : Element) : (e.numbered index).children = [] := rfl

@[simp] theorem adopt_tag (e : Element) (children : List Element) :
    (e.adopt children).tag = e.tag := by
  cases children <;> rfl

theorem children_adopt (e : Element) (children : List Element) :
    (e.adopt children).children = e.children ++ children := by
  cases children <;> simp [adopt]

end Element

namespace Template
open Shorthand.Tree (StampedAll Stamped)

mutual

theorem stampedAll_copies : ∀ (t : Template) (counter : Option Nat),
    StampedAll (·.1.tag) (Tree.expand (·.2) (tree t)) (copies counter t)
  | ⟨element, count, nested⟩, counter => by
    rw [tree, Tree.expand, copies]
    have h : ∀ i, Stamped (·.1.tag) (.node (element, count) (Tree.expandAll (·.2) (trees nested)))
        ((element.numbered ((if 1 < count then some i else counter).getD i)).adopt
          (copiesAll (if 1 < count then some i else counter) nested)) := by
      intro i
      rw [Stamped, Element.adopt_tag, Element.children_adopt, Element.numbered_children,
        List.nil_append]
      exact ⟨⟨_, rfl⟩, stampedAll_copiesAll nested _⟩
    simpa using Tree.stampedAll_replicate h (List.range count)

theorem stampedAll_copiesAll : ∀ (ts : List Template) (counter : Option Nat),
    StampedAll (·.1.tag) (Tree.expandAll (·.2) (trees ts)) (copiesAll counter ts)
  | [], _ => trivial
  | t :: older, counter => by
    rw [trees, Tree.expandAll_append, copiesAll, Tree.expandAll, Tree.expandAll, List.append_nil]
    exact (stampedAll_copies t counter).append (stampedAll_copiesAll older counter)

end

end Template

/-- A forest that is made has the shape of the expanded plan. -/
theorem Assembly.stampedAll_of_forest_eq_ok {a : Assembly} {limit : Nat} {forest : List Element}
    (h : a.forest limit = .ok forest) :
    Tree.StampedAll (·.1.tag) (Tree.expandAll (·.2) (Template.trees a.templates)) forest := by
  rw [Assembly.forest_eq_ok h]
  exact Template.stampedAll_copiesAll _ _

/-- When the expanded plan is not larger than the limit, the forest is not refused. -/
theorem Assembly.forest_eq_of_size_le (a : Assembly) {limit : Nat} (hlimit :
    Tree.sizeAll (Tree.expandAll (·.2) (Template.trees a.templates)) ≤ limit) :
    a.forest limit = if a.Paddable then .ok (Template.copiesAll none a.templates) else .aborted := by
  have htally : ¬ limit < Template.tallyAll a.templates := by
    rw [Template.tallyAll_eq]
    omega
  rw [forest_eq_ite, if_neg htally]

end Shorthand
