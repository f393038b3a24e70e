import Shorthand.Element

/-! # Growth of a tree of elements

An element in a tree has a position: the places among the children that lead to it. A tree grows when
elements are put behind the children of elements that are there. Main statement: every element then keeps
its position, and so its parent and its place among its siblings, and the elements at new positions are
those that were put there (`Grows.extends_tree`). -/

namespace Shorthand.Element

def at? : List Nat → Element → Option Element
  | [], e => some e
  | i :: position, e => e.children[i]?.bind (at? position)

/-- The text of an element after it has grown: one that gets its first children loses it. -/
def textAmong (text : Option Text) (children grown : List Element) : Option Text :=
  if children.isEmpty && !grown.isEmpty then none else text

mutual

/-- The second element is the first one, with some of the new elements put behind the children of elements
in it. -/
def Grows (new : Element → Prop) : Element → Element → Prop
  | ⟨tag, attributes, children, text⟩, grown =>
    grown.tag = tag ∧ grown.attributes = attributes ∧ grown.text = textAmong text children grown.children ∧
      GrowsAll new children grown.children

def GrowsAll (new : Element → Prop) : List Element → List Element → Prop
  | [], added => ∀ e ∈ added, new e
  | e :: es, grown :: rest => Grows new e grown ∧ GrowsAll new es rest
  | _ :: _, [] => False

end

/-- The second tree holds the elements of the first one at their positions, with their tags and attributes,
and their texts as far as they do not get their first children. At any other position it holds a new element,
behind all children that the element above had before. -/
structure Extends (new : Element → Prop) (t grown : Element) : Prop where
  kept : ∀ position e, t.at? position = some e → ∃ e', grown.at? position = some e' ∧ e'.tag = e.tag ∧
    e'.attributes = e.attributes ∧ e'.text = textAmong e.text e.children e'.children
  added : ∀ position e', grown.at? position = some e' → t.at? position = none → new e' ∧
    ∃ above i parent, position = above ++ [i] ∧ t.at? above = some parent ∧ parent.children.length ≤ i

variable {new : Element → Prop}

theorem Grows.children {e grown : Element} (h : Grows new e grown) :
    GrowsAll new e.children grown.children := by
  obtain ⟨tag, attributes, children, text⟩ := e
  exact h.2.2.2

theorem Grows.same {e grown : Element} (h : Grows new e grown) : grown.tag = e.tag ∧
    grown.attributes = e.attributes ∧ grown.text = textAmong e.text e.children grown.children := by
  obtain ⟨tag, attributes, children, text⟩ := e
  exact ⟨h.1, h.2.1, h.2.2.1⟩

/-- An element among others grows in its place. -/
theorem GrowsAll.getElem? : ∀ {es grown : List Element} {i : Nat} {e : Element},
    GrowsAll new es grown → es[i]? = some e → ∃ e', grown[i]? = some e' ∧ Grows new e e'
  | [], _, _, _, _, he => nomatch he
  | _ :: _, [], _, _, h, _ => h.elim
  | _ :: _, e' :: _, 0, _, h, he => by
    cases he
    exact ⟨e', rfl, h.1⟩
  | _ :: _, _ :: _, _ + 1, _, h, he => h.2.getElem? he

/-- What stands behind all elements that were there is new. -/
theorem GrowsAll.new_of_getElem? : ∀ {es grown : List Element} {i : Nat} {e : Element},
    GrowsAll new es grown → grown[i]? = some e → es[i]? = none → new e
  | [], _, _, _, h, he, _ => h _ (List.mem_of_getElem? he)
  | _ :: _, [], _, _, h, _, _ => h.elim
  | _ :: _, _ :: _, 0, _, _, _, hnone => nomatch hnone
  | _ :: _, _ :: _, _ + 1, _, h, he, hnone => h.2.new_of_getElem? he hnone

theorem Grows.exists_at? : ∀ {position : List Nat} {t grown e : Element}, Grows new t grown →
    t.at? position = some e → ∃ e', grown.at? position = some e' ∧ Grows new e e'
  | [], _, grown, _, h, he => by
    cases he
    exact ⟨grown, rfl, h⟩
  | i :: position, _, _, _, h, he => by
    obtain ⟨c, hc, he⟩ := Option.bind_eq_some_iff.1 he
    obtain ⟨c', hc', hgrows⟩ := h.children.getElem? hc
    obtain ⟨e', he', hgrown⟩ := hgrows.exists_at? he
    exact ⟨e', Option.bind_eq_some_iff.2 ⟨c', hc', he'⟩, hgrown⟩

theorem Grows.new_of_at? (hnew : ∀ e, new e → e.children = []) : ∀ {position : List Nat}
    {t grown e : Element}, Grows new t grown → grown.at? position = some e → t.at? position = none →
      new e ∧ ∃ above i parent, position = above ++ [i] ∧ t.at? above = some parent ∧
        parent.children.length ≤ i
  | [], _, _, _, _, _, hnone => nomatch hnone
  | i :: position, t, _, _, h, he, hnone => by
    obtain ⟨c', hc', he⟩ := Option.bind_eq_some_iff.1 he
    cases hc : t.children[i]? with
    | none =>
      -- the child is new and holds no others
      have hc'new := h.children.new_of_getElem? hc' hc
      cases position with
      | nil =>
        cases he
        exact ⟨hc'new, [], i, t, rfl, rfl, List.getElem?_eq_none_iff.1 hc⟩
      | cons j position =>
        rw [at?, hnew c' hc'new] at he
        cases he
    | some c =>
      obtain ⟨d, hd, hgrows⟩ := h.children.getElem? hc
      cases hc'.symm.trans hd
      rw [at?, hc] at hnone
      obtain ⟨he'new, above, j, parent, rfl, hparent, hle⟩ := hgrows.new_of_at? hnew he hnone
      refine ⟨he'new, i :: above, j, parent, rfl, ?_, hle⟩
      rw [at?, hc]
      exact hparent

/-- A tree that has grown extends the tree that it was. -/
theorem Grows.extends_tree {t grown : Element} (hnew : ∀ e, new e → e.children = [])
    (h : Grows new t grown) : Extends new t grown where
  kept position e he := by
    obtain ⟨e', he', hgrows⟩ := h.exists_at? he
    exact ⟨e', he', hgrows.same⟩
  added position e' he' hnone := h.new_of_at? hnew he' hnone

/-! ## Ways to grow -/

theorem textAmong_self (text : Option Text) (children : List Element) :
    textAmong text children children = text := by
  cases children <;> rfl

mutual

theorem Grows.refl : ∀ e : Element, Grows new e e
  | ⟨tag, attributes, children, text⟩ => by
    have h : GrowsAll new children (children ++ []) := GrowsAll.append_new children nofun
    rw [List.append_nil] at h
    exact ⟨rfl, rfl, (textAmong_self text children).symm, h⟩

/-- New elements are put behind others. -/
theorem GrowsAll.append_new : ∀ (es : List Element) {added : List Element}, (∀ e ∈ added, new e) →
    GrowsAll new es (es ++ added)
  | [], _, h => h
  | e :: es, _, h => ⟨Grows.refl e, GrowsAll.append_new es h⟩

end

theorem GrowsAll.refl (es : List Element) : GrowsAll new es es := by
  have h : GrowsAll new es (es ++ []) := GrowsAll.append_new es nofun
  rwa [List.append_nil] at h

theorem GrowsAll.append_left {es grown : List Element} (h : GrowsAll new es grown) :
    ∀ before : List Element, GrowsAll new (before ++ es) (before ++ grown)
  | [] => h
  | e :: before => ⟨Grows.refl e, h.append_left before⟩

theorem GrowsAll.map {α : Type} {f g : α → Element} (h : ∀ a, Grows new (f a) (g a)) :
    ∀ as : List α, GrowsAll new (as.map f) (as.map g)
  | [] => nofun
  | a :: as => ⟨h a, GrowsAll.map h as⟩

/-- An element that has no children of its own grows with those it takes in. -/
theorem GrowsAll.adopt {es grown : List Element} (h : GrowsAll new es grown) {e : Element}
    (he : e.children = []) : Grows new (e.adopt es) (e.adopt grown) := by
  obtain ⟨tag, attributes, children, text⟩ := e
  cases he
  cases es with
  | nil =>
    cases grown with
    | nil => exact Grows.refl _
    | cons f fs => exact ⟨rfl, rfl, rfl, h⟩
  | cons e es =>
    cases grown with
    | nil => exact h.elim
    | cons f fs => exact ⟨rfl, rfl, rfl, h⟩

end Shorthand.Element
