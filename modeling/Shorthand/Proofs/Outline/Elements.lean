import Shorthand.Proofs.Assembly.Plan
import Shorthand.Proofs.Element.OfTerm
import Shorthand.Proofs.Outline.Writing

/-! # Elements of legible rows

A legible row is the element that its own term asks for. A forest of such elements, with texts at its
leaves only, is what comes of a plan that has its rows. -/

namespace Shorthand

def OutlineRow.bare (row : OutlineRow) : Element where
  tag := row.tag
  attributes := row.attributes
  text := row.text

namespace Element

mutual

def tree : Element → Tree (Element × Nat)
  | ⟨tag, attributes, children, text⟩ => .node (⟨tag, attributes, [], text⟩, 1) (trees children)

def trees : List Element → List (Tree (Element × Nat))
  | [] => []
  | e :: es => tree e :: trees es

end

mutual

/-- No element has both a text and children. -/
def TextAtLeaves : Element → Prop
  | ⟨_, _, children, text⟩ => (children ≠ [] → text = none) ∧ TextAtLeavesAll children

def TextAtLeavesAll : List Element → Prop
  | [] => True
  | e :: es => TextAtLeaves e ∧ TextAtLeavesAll es

end

mutual

/-- The rows of the trees are the rows of the outline. -/
theorem rows_tree : ∀ (e : Element) (depth : Nat), Tree.rows depth (tree e) =
    (Outline.ofElement depth e).map fun row => (row.depth, (row.bare, 1))
  | ⟨tag, attributes, children, text⟩, depth => by
    rw [tree, Tree.rows, Outline.ofElement, List.map_cons, rowsAll_trees children]
    rfl

theorem rowsAll_trees : ∀ (es : List Element) (depth : Nat), Tree.rowsAll depth (trees es) =
    (Outline.ofForestAt depth es).map fun row => (row.depth, (row.bare, 1))
  | [], _ => rfl
  | e :: es, depth => by
    rw [trees, Tree.rowsAll, Outline.ofForestAt, List.map_append, rows_tree e, rowsAll_trees es]

end

theorem trees_eq_map (es : List Element) : trees es = es.map tree := by
  induction es with
  | nil => rfl
  | cons e es ih => rw [trees, ih, List.map_cons]

mutual

theorem expand_tree : ∀ e : Element, Tree.expand (·.2) (tree e) = [tree e]
  | ⟨tag, attributes, children, text⟩ => by
    rw [tree, Tree.expand, expandAll_trees children]
    rfl

/-- Nothing is repeated. -/
theorem expandAll_trees : ∀ es : List Element, Tree.expandAll (·.2) (trees es) = trees es
  | [] => rfl
  | e :: es => by
    rw [trees, Tree.expandAll, expand_tree e, expandAll_trees es, List.singleton_append]

end

end Element

theorem Element.textAtLeavesAll_append {es fs : List Element} :
    TextAtLeavesAll (es ++ fs) ↔ TextAtLeavesAll es ∧ TextAtLeavesAll fs := by
  induction es with
  | nil => simp [TextAtLeavesAll]
  | cons e es ih => rw [List.cons_append, TextAtLeavesAll, TextAtLeavesAll, ih, and_assoc]

theorem Outline.ofForestAt_append (depth : Nat) (es fs : List Element) :
    ofForestAt depth (es ++ fs) = ofForestAt depth es ++ ofForestAt depth fs := by
  induction es with
  | nil => rfl
  | cons e es ih => rw [List.cons_append, ofForestAt, ofForestAt, ih, List.append_assoc]

/-! ## The element of a row -/

namespace OutlineRow

theorem Legible.quotable {row : OutlineRow} (h : row.Legible) :
    ∀ a ∈ row.attributes, AttributeList.Quotable a := by
  have hname : ∀ c ∈ ['=', '\'', '"', '\x7b', '\x7d'], c ∈ '=' :: '\'' :: '"' :: unwritable := by
    simp [unwritable]
  have hvalue : ∀ c ∈ ['\'', '\x7b', '\x7d'], c ∈ '\'' :: '$' :: unwritable := by
    simp [unwritable]
  intro a ha
  exact {
    name_ne_nil := h.name_ne_nil a ha
    name := fun c hc => ⟨(h.name a ha c hc).1, fun hm => (h.name a ha c hc).2 (hname c hm)⟩
    value := fun c hc hm => h.value a ha c hc (hvalue c hm) }

theorem foldl_apply_groups {row : OutlineRow} (h : row.Legible) :
    row.groups.foldl Element.apply { tag := row.tag } = row.bare := by
  have hnodup : ((([] : List Attribute) ++ row.attributes).map (·.1)).Nodup := h.names_nodup
  have hattributes : (AttributeList.parse (AttributeList.write row.attributes)).foldl
      (fun e a => e.setAttribute a.1 a.2) ({ tag := row.tag } : Element) =
        { tag := row.tag, attributes := row.attributes } := by
    rw [AttributeList.parse_write h.quotable, Element.foldl_setAttribute hnodup]
    rfl
  have hfirst : (if row.attributes = [] then []
      else [Modifier.attributes (AttributeList.write row.attributes)]).foldl Element.apply
        ({ tag := row.tag } : Element) = { tag := row.tag, attributes := row.attributes } := by
    split
    · rename_i hnil
      rw [hnil]
      rfl
    · exact hattributes
  rw [groups, List.foldl_append, hfirst, bare]
  cases row.text <;> rfl

/-- The term of a legible row asks for its element. -/
theorem Legible.ofTerm?_term {row : OutlineRow} (h : row.Legible) (before : Option Nat) :
    Element.ofTerm? (row.term before) = some row.bare := by
  have hcreate : Element.create? row.tag = some { tag := row.tag } := by
    rw [Element.create?, if_neg (by simpa using h.tag_ne_nil)]
  change (Element.create? row.tag).map _ = _
  rw [hcreate, Option.map_some]
  change some (row.groups.foldl Element.apply _).withPlaceholders = _
  rw [foldl_apply_groups h, Element.withPlaceholders_eq_self h.placeholders]

theorem Legible.uncounted_bare {row : OutlineRow} (h : row.Legible) : row.bare.Uncounted where
  tag hm := not_mem_of_isTagChar ['$'] (by decide) h.tag '$' hm List.mem_cons_self
  values a ha hm := h.value a ha '$' hm (List.mem_cons_of_mem _ List.mem_cons_self)
  text content hc hm := h.text content hc '$' hm List.mem_cons_self

theorem Legible.numbered_bare {row : OutlineRow} (h : row.Legible) (index : Nat) :
    row.bare.numbered index = row.bare := h.uncounted_bare.numbered_eq index

end OutlineRow

/-! ## The copies of a plan of elements -/

namespace Template
open Outline (ofElement ofForestAt)

mutual

/-- A template that is the tree of an element makes this element. -/
theorem copies_of_tree_eq : ∀ (t : Template) (e : Element) (depth : Nat) (counter : Option Nat),
    tree t = e.tree → (∀ row ∈ ofElement depth e, row.Legible) → e.TextAtLeaves →
      copies counter t = [e]
  | ⟨element, count, nested⟩, ⟨tag, attributes, children, text⟩, depth, counter, ht, hrows, hleaves => by
    rw [tree, Element.tree] at ht
    injection ht with hlabel hbelow
    obtain ⟨rfl, rfl⟩ := Prod.mk.inj hlabel
    rw [ofElement] at hrows
    obtain ⟨htext, hleaves⟩ := hleaves
    have hbelow := copiesAll_of_trees_eq nested children (depth + 1) counter hbelow
      (fun row hr => hrows row (List.mem_cons_of_mem _ hr)) hleaves
    have hbare := (hrows _ List.mem_cons_self).numbered_bare (counter.getD 0)
    have hcopy : copies counter ⟨⟨tag, attributes, [], text⟩, 1, nested⟩ =
        [(Element.numbered (counter.getD 0) ⟨tag, attributes, [], text⟩).adopt
          (copiesAll counter nested)] := rfl
    rw [hcopy, hbelow, show Element.numbered (counter.getD 0) ⟨tag, attributes, [], text⟩ = _ from hbare]
    cases children with
    | nil => rfl
    | cons e es =>
      rw [htext (List.cons_ne_nil e es)]
      rfl

theorem copiesAll_of_trees_eq : ∀ (ts : List Template) (es : List Element) (depth : Nat)
    (counter : Option Nat), trees ts = Element.trees es →
      (∀ row ∈ ofForestAt depth es, row.Legible) → Element.TextAtLeavesAll es →
      copiesAll counter ts = es
  | [], es, _, _, ht, _, _ => by
    cases es with
    | nil => rfl
    | cons e es => cases ht
  | t :: older, es, depth, counter, ht, hrows, hleaves => by
    rw [trees, Element.trees_eq_map] at ht
    obtain ⟨first, last, rfl, hfirst, hlast⟩ := List.map_eq_append_iff.1 ht.symm
    obtain ⟨e, rfl, he⟩ := List.map_eq_singleton_iff.1 hlast
    rw [Outline.ofForestAt_append] at hrows
    obtain ⟨hleaves, hleaf, -⟩ := Element.textAtLeavesAll_append.1 hleaves
    rw [copiesAll, copiesAll_of_trees_eq older first depth counter
      (by rw [Element.trees_eq_map]; exact hfirst.symm)
      (fun row hr => hrows row (List.mem_append_left _ hr)) hleaves,
      copies_of_tree_eq t e depth counter he.symm
        (fun row hr => hrows row (List.mem_append_right _ (List.mem_append_left _ hr))) hleaf]

end

end Template
end Shorthand
