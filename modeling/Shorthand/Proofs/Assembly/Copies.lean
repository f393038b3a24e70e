import Shorthand.Proofs.Assembly.Growth
import Shorthand.Proofs.Outline.Elements

/-! # What a forest is made of

Every row of a forest is that of a numbered copy of the element of one of the terms, without its text where
it has children. So what numbering and the loss of a text leave true of the elements of the terms is true of
every row (`forall_rows_forest`). -/

namespace Shorthand

theorem Outline.ofElement_adopt (depth : Nat) {e : Element} (h : e.children = []) (children : List Element) :
    ofElement depth (e.adopt children) =
      ⟨depth, e.tag, e.attributes, if children.isEmpty then e.text else none⟩ ::
        ofForestAt (depth + 1) children := by
  obtain ⟨tag, attributes, below, text⟩ := e
  cases h
  cases children <;> rfl

/-- Numbering takes elements of which `Q` holds to elements of which `P` holds, with and without text. -/
structure Element.Numbers (Q P : Element → Prop) : Prop where
  numbered : ∀ e, Q e → ∀ index, P (e.numbered index)
  withoutText : ∀ e, P e → P { e with text := none }

variable {Q P : Element → Prop}

namespace Template
open Outline (ofForestAt)

mutual

/-- What is true of the copies of single elements is true of the rows of the copies of a template. -/
theorem forall_rows_copies (hcopy : Element.Numbers Q P) :
    ∀ (t : Template) (level depth : Nat) (counter : Option Nat),
      (∀ row ∈ Tree.rows level (tree t), Q row.2.1) →
        ∀ row ∈ ofForestAt depth (copies counter t), P row.bare
  | ⟨element, count, nested⟩, level, depth, counter, h => by
    rw [tree, Tree.rows, List.forall_mem_cons] at h
    rw [copies]
    induction List.range count with
    | nil => exact nofun
    | cons i is ih =>
      rw [List.map_cons, ofForestAt, List.forall_mem_append, Outline.ofElement_adopt _ rfl,
        List.forall_mem_cons]
      refine ⟨⟨?_, forall_rows_copiesAll hcopy nested (level + 1) (depth + 1) _ h.2⟩, ih⟩
      have hown := hcopy.numbered element h.1 ((if 1 < count then some i else counter).getD i)
      -- the copy keeps its text when nothing is nested in it
      cases (copiesAll (if 1 < count then some i else counter) nested).isEmpty with
      | true => exact hown
      | false => exact hcopy.withoutText _ hown

theorem forall_rows_copiesAll (hcopy : Element.Numbers Q P) :
    ∀ (ts : List Template) (level depth : Nat) (counter : Option Nat),
      (∀ row ∈ Tree.rowsAll level (trees ts), Q row.2.1) →
        ∀ row ∈ ofForestAt depth (copiesAll counter ts), P row.bare
  | [], _, _, _, _ => nofun
  | t :: older, level, depth, counter, h => by
    rw [trees, Tree.rowsAll_append, List.forall_mem_append] at h
    rw [Tree.rowsAll, Tree.rowsAll, List.append_nil] at h
    rw [copiesAll, Outline.ofForestAt_append, List.forall_mem_append]
    exact ⟨forall_rows_copiesAll hcopy older level depth counter h.1,
      forall_rows_copies hcopy t level depth counter h.2⟩

end

end Template

namespace Assembly

theorem forall_rows_push {a : Assembly} {t : Term} (ht : ∀ e, Element.ofTerm? t = some e → Q e)
    (h : ∀ row ∈ Tree.rowsAll 0 (Template.trees a.templates), Q row.2.1) :
    ∀ row ∈ Tree.rowsAll 0 (Template.trees (a.push t).templates), Q row.2.1 := by
  rcases a.push_templates t with hsame | ⟨element, depth, helement, hattach⟩
  · rwa [hsame]
  · rw [hattach, Template.rowsAll_attach, List.forall_mem_append]
    exact ⟨h, List.forall_mem_singleton.2 (ht element helement)⟩

/-- The templates that are assembled hold the elements of the terms. -/
theorem forall_rows_foldl_push : ∀ {terms : List Term} {a : Assembly},
    (∀ t ∈ terms, ∀ e, Element.ofTerm? t = some e → Q e) →
      (∀ row ∈ Tree.rowsAll 0 (Template.trees a.templates), Q row.2.1) →
        ∀ row ∈ Tree.rowsAll 0 (Template.trees (terms.foldl push a).templates), Q row.2.1
  | [], _, _, h => h
  | t :: terms, a, hterms, h => by
    obtain ⟨ht, hrest⟩ := List.forall_mem_cons.1 hterms
    rw [List.foldl_cons]
    exact forall_rows_foldl_push hrest (forall_rows_push ht h)

/-- What is true of the numbered elements of the terms, with and without their texts, is true of every row
of the forest. -/
theorem forall_rows_forest (hcopy : Element.Numbers Q P) {terms : List Term}
    (hterms : ∀ t ∈ terms, ∀ e, Element.ofTerm? t = some e → Q e) {limit : Nat} {forest : List Element}
    (h : (ofTerms terms).forest limit = .ok forest) : ∀ row ∈ Outline.ofForest forest, P row.bare := by
  rw [forest_eq_ok h]
  exact Template.forall_rows_copiesAll hcopy _ 0 0 none (forall_rows_foldl_push hterms nofun)

end Assembly
end Shorthand
