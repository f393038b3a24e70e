import Shorthand.Proofs.Assembly.Growth
import Shorthand.Proofs.Assembly.Terms

/-! # Which number a copy gets

A forest that is made holds the copies of the templates, each inside a copy of the template above. These
copies are the lineage of a position. A copy of a repeated template is numbered by its place among the
copies of this template, any other copy like the copy that it lies in, and the first number is left for what
lies in no such copy. Main statement: every element has a lineage and is the element of a term, numbered by
the nearest repeated template of its lineage (`forest_numbered`). -/

namespace Shorthand

/-! ## Lineages -/

namespace Tree

variable {α : Type}

/-- One of the copies of a node: the label of the node, and how many of its copies stand before. -/
structure Copy (α : Type) where
  label : α
  index : Nat

/-- The copies that lead to a position of an expanded forest, the innermost first. The copies of a node
stand in the order of their indices, behind those of all nodes before it. -/
inductive Lineage (count : α → Nat) : List (Tree α) → List Nat → List (Copy α) → Prop where
  | outside (ts : List (Tree α)) : Lineage count ts [] []
  | inside {before after below : List (Tree α)} {label : α} {index : Nat} {position : List Nat}
      {copies : List (Copy α)} (index_lt : index < count label)
      (inner : Lineage count below position copies) :
      Lineage count (before ++ .node label below :: after)
        (((expandAll count before).length + index) :: position) (copies ++ [⟨label, index⟩])

/-- The index of the first one of the copies whose node is repeated. -/
def counter? (count : α → Nat) (copies : List (Copy α)) : Option Nat :=
  copies.findSome? fun copy => if 1 < count copy.label then some copy.index else none

variable {count : α → Nat}

@[simp] theorem counter?_nil : counter? count [] = none := rfl

theorem counter?_append (copies outer : List (Copy α)) :
    counter? count (copies ++ outer) = (counter? count copies).or (counter? count outer) :=
  List.findSome?_append

theorem Lineage.copies_eq_nil_iff {ts : List (Tree α)} {position : List Nat} {copies : List (Copy α)}
    (h : Lineage count ts position copies) : copies = [] ↔ position = [] := by
  cases h <;> simp

theorem Lineage.index_lt {ts : List (Tree α)} {position : List Nat} {copies : List (Copy α)}
    (h : Lineage count ts position copies) : ∀ copy ∈ copies, copy.index < count copy.label := by
  induction h with
  | outside => exact nofun
  | inside index_lt _ ih =>
    rw [List.forall_mem_append, List.forall_mem_singleton]
    exact ⟨ih, index_lt⟩

theorem Lineage.mem_rowsAll {ts : List (Tree α)} {position : List Nat} {copies : List (Copy α)}
    (h : Lineage count ts position copies) :
    ∀ copy ∈ copies, ∀ depth, ∃ row ∈ rowsAll depth ts, row.2 = copy.label := by
  induction h with
  | outside => exact nofun
  | @inside before after below label index _ _ _ _ ih =>
    have hrows : ∀ depth, rowsAll depth (before ++ .node label below :: after) =
        rowsAll depth before ++ ((depth, label) :: rowsAll (depth + 1) below ++ rowsAll depth after) :=
      fun depth => by rw [rowsAll_append, rowsAll, rows]
    rw [List.forall_mem_append, List.forall_mem_singleton]
    refine ⟨fun copy hcopy depth => ?_, fun depth => ?_⟩
    · obtain ⟨row, hrow, heq⟩ := ih copy hcopy (depth + 1)
      exact ⟨row, by simp [hrows, hrow], heq⟩
    · exact ⟨(depth, label), by simp [hrows], rfl⟩

/-- A place in an expanded forest belongs to a copy of one of the nodes. -/
theorem exists_copy_of_lt : ∀ {ts : List (Tree α)} {n : Nat}, n < (expandAll count ts).length →
    ∃ before label below after index, ts = before ++ .node label below :: after ∧
      index < count label ∧ n = (expandAll count before).length + index
  | [], _, h => nomatch h
  | .node label below :: ts, n, h => by
    by_cases hn : n < count label
    · exact ⟨[], label, below, ts, n, rfl, hn, (Nat.zero_add n).symm⟩
    · rw [expandAll, expand, List.length_append, List.length_replicate] at h
      have hrest : n - count label < (expandAll count ts).length := by omega
      obtain ⟨before, label', below', after, index, rfl, hindex, heq⟩ := exists_copy_of_lt hrest
      refine ⟨.node label below :: before, label', below', after, index, rfl, hindex, ?_⟩
      rw [expandAll, expand, List.length_append, List.length_replicate]
      omega

theorem StampedAll.length_eq {name : α → Text} : ∀ {ts : List (Tree α)} {es : List Element},
    StampedAll name ts es → es.length = ts.length
  | [], [], _ => rfl
  | _ :: _, _ :: _, ⟨_, h⟩ => congrArg (· + 1) h.length_eq

end Tree

/-! ## Copies of templates -/

/-- The element is the copy of another one that has the given index: its counters are replaced everywhere
but in the names of attributes, and it has dropped its text if children were put into it. -/
structure Element.IsNumbered (e : Element) (index : Nat) (original : Element) : Prop where
  tag : e.tag = Text.Numbering.number index original.tag
  attributes : e.attributes = original.attributes.map fun a => (a.1, Text.Numbering.number index a.2)
  text : e.text = if e.children.isEmpty then original.text.map (Text.Numbering.number index) else none

theorem Element.isNumbered_adopt (index : Nat) (original : Element) (children : List Element) :
    ((original.numbered index).adopt children).IsNumbered index original := by
  cases children <;> exact ⟨rfl, rfl, rfl⟩

namespace Template
open Shorthand.Tree (Copy Lineage counter? counter?_nil expandAll)

def counterInside (count index : Nat) (counter : Option Nat) : Option Nat :=
  if 1 < count then some index else counter

theorem copiesAll_append (counter : Option Nat) (newer older : List Template) :
    copiesAll counter (newer ++ older) = copiesAll counter older ++ copiesAll counter newer := by
  induction newer with
  | nil => exact (List.append_nil _).symm
  | cons t newer ih => rw [List.cons_append, copiesAll, copiesAll, ih, List.append_assoc]

theorem length_copiesAll (counter : Option Nat) (ts : List Template) :
    (copiesAll counter ts).length = (expandAll (·.2) (trees ts)).length :=
  (stampedAll_copiesAll ts counter).length_eq

theorem trees_eq_reverse (ts : List Template) : trees ts = (ts.map tree).reverse := by
  induction ts with
  | nil => rfl
  | cons t older ih => rw [trees, ih, List.map_cons, List.reverse_cons]

/-- The copies of a template stand behind those of all older ones. -/
theorem getElem?_copiesAll {ts : List Template} {before after below : List (Tree (Element × Nat))}
    {label : Element × Nat} (hts : trees ts = before ++ .node label below :: after)
    {index : Nat} (hindex : index < label.2) (counter : Option Nat) :
    ∃ nested, trees nested = below ∧
      (copiesAll counter ts)[(expandAll (·.2) before).length + index]? =
        some ((label.1.numbered ((counterInside label.2 index counter).getD index)).adopt
          (copiesAll (counterInside label.2 index counter) nested)) := by
  rw [trees_eq_reverse, List.reverse_eq_iff, List.reverse_append, List.reverse_cons,
    List.append_assoc, List.singleton_append] at hts
  obtain ⟨newer, _, rfl, -, hts⟩ := List.map_eq_append_iff.1 hts
  obtain ⟨⟨element, count, nested⟩, older, rfl, ht, holder⟩ := List.map_eq_cons_iff.1 hts
  rw [tree] at ht
  cases ht
  have hbefore : (expandAll (·.2) before).length = (copiesAll counter older).length := by
    rw [length_copiesAll, trees_eq_reverse, holder, List.reverse_reverse]
  refine ⟨nested, rfl, ?_⟩
  rw [copiesAll_append, copiesAll, List.append_assoc, hbefore, copies,
    List.getElem?_append_right (Nat.le_add_right _ _), Nat.add_sub_cancel_left,
    List.getElem?_append_left (by simpa using hindex)]
  simp [hindex, counterInside]

/-- The number of a copy that is not repeated itself is the one around it. -/
theorem getD_counterInside {count index : Nat} (h : index < count) (counter : Option Nat) :
    (counterInside count index counter).getD index = (counterInside count index counter).getD 0 := by
  unfold counterInside
  split
  · rfl
  · rw [show index = 0 by omega]

theorem counterInside_eq (label : Element × Nat) (index : Nat) (counter : Option Nat) :
    counterInside label.2 index counter =
      (counter? (·.2) [⟨label, index⟩] : Option Nat).or counter := by
  unfold counterInside counter?
  rw [List.findSome?_singleton]
  split <;> rfl

/-- What the copies lead to is numbered by the first one of them whose template is repeated, or else by the
counter around all of them. -/
theorem exists_isNumbered {plan : List (Tree (Element × Nat))} {position : List Nat}
    {copies : List (Copy (Element × Nat))} (h : Lineage (·.2) plan position copies) :
    ∀ {ts : List Template} {counter : Option Nat} {e : Element} {copy : Copy (Element × Nat)}
      {outer : List (Copy (Element × Nat))}, trees ts = plan → e.children = copiesAll counter ts →
        copies = copy :: outer → ∃ e', e.at? position = some e' ∧
          e'.IsNumbered (((counter? (·.2) copies).or counter).getD 0) copy.label.1 := by
  induction h with
  | outside => exact fun _ _ h => nomatch h
  | @inside before after below label index position copies index_lt inner ih =>
    intro ts counter e copy outer hts he hcopies
    obtain ⟨nested, hnested, hget⟩ := getElem?_copiesAll hts index_lt counter
    rw [← he] at hget
    rw [Element.at?, hget, Option.bind_some, Tree.counter?_append, Option.or_assoc, ← counterInside_eq]
    cases copies with
    | nil =>
      obtain rfl := inner.copies_eq_nil_iff.1 rfl
      cases hcopies
      refine ⟨_, rfl, ?_⟩
      rw [counter?_nil, Option.none_or, getD_counterInside index_lt]
      exact Element.isNumbered_adopt _ _ _
    | cons first rest =>
      -- the innermost copy is already among the inner ones
      obtain ⟨rfl, -⟩ := List.cons.inj hcopies
      refine ih hnested ?_ rfl
      rw [Element.children_adopt, Element.numbered_children, List.nil_append]

/-- Every element that is made has a lineage. -/
theorem exists_lineage : ∀ {position : List Nat} {ts : List Template} {counter : Option Nat}
    {e e' : Element}, e.children = copiesAll counter ts → e.at? position = some e' →
      ∃ copies, Lineage (·.2) (trees ts) position copies
  | [], ts, _, _, _, _, _ => ⟨[], .outside (trees ts)⟩
  | n :: position, ts, counter, e, e', he, hat => by
    obtain ⟨c, hc, hinside⟩ := Option.bind_eq_some_iff.1 hat
    have hn : n < (expandAll (·.2) (trees ts)).length := by
      rw [← length_copiesAll counter, ← he]
      exact (List.getElem?_eq_some_iff.1 hc).1
    obtain ⟨before, label, below, after, index, hts, hindex, rfl⟩ := Tree.exists_copy_of_lt hn
    obtain ⟨nested, rfl, hget⟩ := getElem?_copiesAll hts hindex counter
    rw [← he, hc] at hget
    have hchildren : c.children = copiesAll (counterInside label.2 index counter) nested := by
      rw [Option.some.inj hget, Element.children_adopt, Element.numbered_children, List.nil_append]
    obtain ⟨copies, hinner⟩ := exists_lineage hchildren hinside
    rw [hts]
    exact ⟨_, .inside hindex hinner⟩

end Template

namespace Assembly
open Shorthand.Tree (Copy Lineage counter?)

/-- The nodes of the plan are the elements of the terms, with their counts. -/
theorem exists_term_of_lineage {terms : List Term} {position : List Nat}
    {copies : List (Copy (Element × Nat))}
    (h : Lineage (·.2) (Template.trees (ofTerms terms).templates) position copies) :
    ∀ copy ∈ copies, ∃ t ∈ terms, Element.ofTerm? t = some copy.label.1 ∧ t.count = copy.label.2 := by
  intro copy hcopy
  obtain ⟨row, hrow, hlabel⟩ := h.mem_rowsAll copy hcopy 0
  rw [Nesting.rowsAll_trees_ofTerms] at hrow
  obtain ⟨⟨t, i⟩, ht, rfl⟩ := List.mem_map.1 hrow
  obtain ⟨hget, hnamed⟩ := Nesting.mem_named_iff.1 ht
  rw [Nesting.isNamed_of_getElem? hget, Bool.not_eq_true', ← Bool.not_eq_true,
    ← Element.ofTerm?_eq_none_iff] at hnamed
  obtain ⟨element, helement⟩ := Option.ne_none_iff_exists'.1 hnamed
  refine ⟨t, List.mem_of_getElem? hget, ?_, congrArg Prod.snd hlabel⟩
  rw [← hlabel, helement, Term.sketch, helement]
  rfl

theorem counter?_lt {copies : List (Copy (Element × Nat))}
    (h : ∀ copy ∈ copies, copy.index < copy.label.2) {bound : Nat}
    (hbound : ∀ copy ∈ copies, copy.label.2 ≤ bound) : ∀ i ∈ counter? (·.2) copies, i < bound := by
  intro i hi
  obtain ⟨copy, hcopy, hindex⟩ := List.exists_of_findSome?_eq_some hi
  split at hindex
  · cases hindex
    exact Nat.lt_of_lt_of_le (h copy hcopy) (hbound copy hcopy)
  · cases hindex

/-- **Counters follow the nearest repeated template.** Every element of a forest that is made lies in copies
of the templates above it. It is the element of a term, numbered by the place that the copy nearest to it
whose template is repeated has among the copies of this template, and with the first number when there is
none. With counts up to the largest tally no number is over it. -/
theorem forest_numbered {terms : List Term} {limit : Nat} {forest : List Element}
    (h : (ofTerms terms).forest limit = .ok forest) :
    (∀ position e, position ≠ [] → (tree forest).at? position = some e → ∃ copy outer,
      Lineage (·.2) (Template.trees (ofTerms terms).templates) position (copy :: outer)) ∧
    ∀ position copy outer,
      Lineage (·.2) (Template.trees (ofTerms terms).templates) position (copy :: outer) →
        (∃ t ∈ terms, Element.ofTerm? t = some copy.label.1 ∧ t.count = copy.label.2) ∧
        (∃ e, (tree forest).at? position = some e ∧
          e.IsNumbered ((counter? (·.2) (copy :: outer)).getD 0) copy.label.1) ∧
        ((∀ t ∈ terms, t.count ≤ maxTally) →
          (counter? (·.2) (copy :: outer)).getD 0 + 1 ≤ maxTally) := by
  have hforest : (tree forest).children = Template.copiesAll none (ofTerms terms).templates :=
    forest_eq_ok h
  refine ⟨fun position e hne he => ?_, fun position copy outer hlineage => ⟨?_, ?_, fun hcounts => ?_⟩⟩
  · obtain ⟨copies, hlineage⟩ := Template.exists_lineage hforest he
    obtain ⟨copy, outer, rfl⟩ := List.exists_cons_of_ne_nil (mt hlineage.copies_eq_nil_iff.1 hne)
    exact ⟨copy, outer, hlineage⟩
  · exact exists_term_of_lineage hlineage copy List.mem_cons_self
  · have hnumbered := Template.exists_isNumbered hlineage rfl hforest rfl
    rwa [Option.or_none] at hnumbered
  · have hbound : ∀ c ∈ copy :: outer, c.label.2 ≤ maxTally := fun c hc => by
      obtain ⟨t, ht, -, hcount⟩ := exists_term_of_lineage hlineage c hc
      exact hcount ▸ hcounts t ht
    cases hcounter : counter? (·.2) (copy :: outer) with
    | none => decide
    | some i => exact counter?_lt hlineage.index_lt hbound i hcounter

/-- The terms of `ul$*2>li*3{no $}>p{$$}+i*0`. -/
def sheet : List Term :=
  [{ name := "ul$".toList, count := 2 },
    { operator := .child, name := "li".toList, count := 3, modifiers := [.text "no $".toList] },
    { operator := .child, name := "p".toList, modifiers := [.text "$$".toList] },
    { operator := .sibling, name := "i".toList, count := 0 }]

/-- The copies that lead to the element in the third item of the second list of the sheet. -/
def sheetCopies : List (Copy (Element × Nat)) :=
  [⟨({ tag := "p".toList, text := some "$$".toList }, 1), 0⟩,
    ⟨({ tag := "li".toList, text := some "no $".toList }, 3), 2⟩, ⟨({ tag := "ul$".toList }, 2), 1⟩]

theorem forest_numbered_sheet : ∃ forest, (ofTerms sheet).forest 14 = .ok forest ∧
    Lineage (·.2) (Template.trees (ofTerms sheet).templates) [1, 2, 0] sheetCopies ∧
    (∃ copy outer, Lineage (·.2) (Template.trees (ofTerms sheet).templates) [1, 2] (copy :: outer)) ∧
    (∃ e, (tree forest).at? [1, 2, 0] = some e ∧
      e.IsNumbered 2 { tag := "p".toList, text := some "$$".toList }) ∧ 2 + 1 ≤ maxTally := by
  have hlineage : Lineage (·.2) (Template.trees (ofTerms sheet).templates) [1, 2, 0] sheetCopies :=
    @Lineage.inside _ _ [] [] _ _ 1 _ _ (by decide) <| @Lineage.inside _ _ [] [] _ _ 2 _ _ (by decide) <|
      @Lineage.inside _ _ [] _ _ _ 0 _ _ (by decide) (.outside [])
  obtain ⟨hexists, hnumbered⟩ := @forest_numbered sheet 14 _ rfl
  obtain ⟨-, he, hle⟩ := hnumbered [1, 2, 0] _ _ hlineage
  exact ⟨_, rfl, hlineage, hexists [1, 2] _ nofun rfl, he, hle (by decide)⟩

end Assembly
end Shorthand
