import Shorthand.Expansion
import Shorthand.Proofs.Assembly.Refinement
import Shorthand.Proofs.Outline.Elements

/-! # Forests that are written and expanded again

The depths of written terms are the depths of their rows, so the plan of the assembly has the rows of
the outline. Main statement: the abbreviation of a forest stands for this forest. -/

namespace Shorthand
open Nesting (depthOf nestingForest)

/-! ## The depths of written terms -/

theorem depthFrom_between {before after : Nat} (h : after ≤ before + 1) :
    (Operator.between (some before) after).depthFrom before = after := by
  rw [Operator.between]
  split
  · change before + 1 = after
    omega
  · split
    · assumption
    · change before - (before - after) = after
      omega

theorem Tree.Steps.le {α : Type} : ∀ {rs : List (Nat × α)} {i : Nat} {r s : Nat × α}, Steps rs →
    rs[i]? = some r → rs[i + 1]? = some s → s.1 ≤ r.1 + 1
  | [], _, _, _, _, hr, _ => nomatch hr
  | [_], 0, _, _, _, _, hs => nomatch hs
  | [_], _ + 1, _, _, _, hr, _ => nomatch hr
  | _ :: _ :: _, 0, _, _, hsteps, hr, hs => by
    cases hr
    cases hs
    exact hsteps.1
  | _ :: _ :: _, _ + 1, _, _, hsteps, hr, hs => Steps.le hsteps.2 hr hs

namespace Outline

theorem getElem?_terms_succ : ∀ (rows : List OutlineRow) (before : Option Nat) (i : Nat)
    {row : OutlineRow}, rows[i]? = some row →
      (terms before rows)[i + 1]? = rows[i + 1]?.map (OutlineRow.term (some row.depth))
  | [], _, _, _, h => nomatch h
  | [_], _, 0, _, _ => rfl
  | _ :: _ :: _, _, 0, _, h => by cases h; rfl
  | row :: rows, _, i + 1, _, h => getElem?_terms_succ rows (some row.depth) i h

theorem getElem?_terms : ∀ (rows : List OutlineRow) (before : Option Nat) (i : Nat),
    ∃ b, (terms before rows)[i]? = rows[i]?.map (OutlineRow.term b)
  | [], _, _ => ⟨none, rfl⟩
  | _ :: _, before, 0 => ⟨before, rfl⟩
  | row :: rows, _, i + 1 => getElem?_terms rows (some row.depth) i

/-- Each written term has the depth of its row. -/
theorem depthOf_terms {rows : List OutlineRow}
    (hsteps : Tree.Steps (rows.map fun row => (row.depth, (row.bare, 1))))
    (hzero : ∀ row ∈ rows.head?, row.depth = 0) : ∀ {i : Nat} {row : OutlineRow},
      rows[i]? = some row → depthOf (terms none rows) i = row.depth
  | 0, row, h => (hzero row (by rw [List.head?_eq_getElem?]; exact h)).symm
  | i + 1, row, h => by
    have hlt : i < rows.length := Nat.lt_of_succ_lt (List.getElem?_eq_some_iff.1 h).1
    have hrow := List.getElem?_eq_getElem hlt
    have hle : row.depth ≤ rows[i].depth + 1 :=
      hsteps.le (by rw [List.getElem?_map, hrow]; rfl) (by rw [List.getElem?_map, h]; rfl)
    rw [depthOf, getElem?_terms_succ rows none i hrow, h, Option.map_some]
    dsimp only
    rw [depthOf_terms hsteps hzero hrow]
    exact depthFrom_between hle

/-- A forest that can be written: legible elements, not too many, texts at the leaves only, and no
escape prefix at the beginning. -/
structure Writable (forest : List Element) : Prop where
  ne_nil : forest ≠ []
  length_le : (ofForest forest).length ≤ Assembly.maxElements
  legible : ∀ row ∈ ofForest forest, row.Legible
  text_at_leaves : Element.TextAtLeavesAll forest
  no_escape : ∀ row ∈ (ofForest forest).head?, Rules.beginsWith "asp:".toList row.tag = false

theorem steps_ofForest (forest : List Element) :
    Tree.Steps ((ofForest forest).map fun row => (row.depth, (row.bare, 1))) ∧
      ∀ row ∈ (ofForest forest).head?, row.depth = 0 := by
  have hrows := Tree.steps_rowsAll (Element.trees forest) 0 (show Tree.Steps [] from trivial) nofun
  rw [List.append_nil, Element.rowsAll_trees] at hrows
  refine ⟨hrows.1, fun row hr => Nat.le_zero.1 (hrows.2 (row.depth, (row.bare, 1)) ?_)⟩
  rw [List.head?_map]
  exact Option.mem_map_of_mem _ hr

/-- The plan of a written forest is the forest. -/
theorem trees_ofTerms_terms {forest : List Element} (h : ∀ row ∈ ofForest forest, row.Legible) :
    Template.trees (Assembly.ofTerms (terms none (ofForest forest))).templates =
      Element.trees forest := by
  have hnames : ∀ t ∈ terms none (ofForest forest), t.name ≠ [] := by
    intro t ht
    obtain ⟨row, hr, b, rfl⟩ := OutlineRow.mem_terms _ none ht
    exact (h row hr).tag_ne_nil
  obtain ⟨hsteps, hzero⟩ := steps_ofForest forest
  refine Tree.rowsAll_injective 0 ?_
  rw [Nesting.trees_eq_nestingForest hnames, Tree.rowsAll_mapAll, Nesting.rowsAll_nestingForest,
    Element.rowsAll_trees]
  change _ = (ofForest forest).map _
  refine List.ext_getElem? fun i => ?_
  obtain ⟨b, hb⟩ := getElem?_terms (ofForest forest) none i
  rw [List.getElem?_map, List.getElem?_map, List.getElem?_map, List.getElem?_zipIdx, hb]
  cases hrow : (ofForest forest)[i]? with
  | none => rfl
  | some row =>
    have hdepth := depthOf_terms hsteps hzero hrow
    have hterm := (h row (List.mem_of_getElem? hrow)).ofTerm?_term b
    simp [Term.sketch, hdepth, hterm]
    rfl

/-- The written forest is assembled to itself. -/
theorem forest_ofTerms_terms {forest : List Element} (h : Writable forest) :
    (Assembly.ofTerms (terms none (ofForest forest))).forest Assembly.maxElements = .ok forest := by
  have htrees := trees_ofTerms_terms h.legible
  have hsize : Tree.sizeAll (Element.trees forest) = (ofForest forest).length := by
    rw [← Tree.length_rowsAll (Element.trees forest) 0, Element.rowsAll_trees, List.length_map]
    rfl
  have htally : ¬ Assembly.maxElements <
      Template.tallyAll (Assembly.ofTerms (terms none (ofForest forest))).templates := by
    have hle := h.length_le
    rw [Template.tallyAll_eq, htrees, Element.expandAll_trees, hsize]
    omega
  have hcopies := Template.copiesAll_of_trees_eq _ forest 0 none htrees h.legible h.text_at_leaves
  have hpaddable : (Assembly.ofTerms (terms none (ofForest forest))).Paddable := by
    refine Assembly.paddable_ofTerms fun t ht e he => ?_
    obtain ⟨row, hr, b, rfl⟩ := OutlineRow.mem_terms _ none ht
    rw [(h.legible row hr).ofTerm?_term b] at he
    cases he
    exact (h.legible row hr).uncounted_bare.paddable
  rw [Assembly.forest_eq_ite, if_neg htally, if_pos hpaddable, hcopies]

/-- The terms of a written forest are read off its abbreviation. -/
theorem terms_write {forest : List Element} (h : ∀ row ∈ ofForest forest, row.Legible)
    {x : Expander} (hnames : ∀ row ∈ ofForest forest, x.aliases.resolveName row.tag = row.tag) :
    x.terms (write forest) = terms none (ofForest forest) := by
  have htokens := Token.map_toTerm_tokenize_write (OutlineRow.writableTerms_terms h)
  rw [Expander.terms, write]
  refine (List.map_congr_left fun token htoken => ?_).trans htokens
  have hmem : token.toTerm ∈ terms none (ofForest forest) := by
    rw [← htokens]
    exact List.mem_map_of_mem htoken
  obtain ⟨row, hr, b, hterm⟩ := OutlineRow.mem_terms _ none hmem
  have hname : token.name = row.tag := congrArg Term.name hterm
  rw [Alias.Table.resolve, hname, hnames row hr, ← hname]
  rfl

theorem forest_write {forest : List Element} (h : Writable forest) {x : Expander}
    (hrules : x.rules = {})
    (hnames : ∀ row ∈ ofForest forest, x.aliases.resolveName row.tag = row.tag) :
    x.forest (write forest) = .ok forest := by
  have hcheck : x.rules.check (write forest) = .ok () := by
    rw [hrules, write]
    cases hrows : ofForest forest with
    | nil =>
      obtain ⟨⟨tag, attributes, children, text⟩, es, rfl⟩ := List.exists_cons_of_ne_nil h.ne_nil
      cases hrows
    | cons row rows =>
      have hlegible := h.legible
      have hasp := h.no_escape
      rw [hrows] at hlegible hasp
      exact OutlineRow.check_write hlegible (hasp row rfl)
  rw [Expander.forest, hcheck, terms_write h.legible hnames]
  dsimp only
  rw [forest_ofTerms_terms h]
  obtain ⟨e, es, rfl⟩ := List.exists_cons_of_ne_nil h.ne_nil
  rfl

/-- **A written forest is expanded to itself**, with any aliases that leave its tags alone and with none
at all. -/
theorem forest_write_eq_ok (forest : List Element) (h : Writable forest) :
    (∀ x : Expander, x.rules = {} →
      (∀ row ∈ ofForest forest, x.aliases.resolveName row.tag = row.tag) →
        x.forest (write forest) = .ok forest) ∧
    ∀ indent, ({ aliases := .empty, indent } : Expander).forest (write forest) = .ok forest :=
  ⟨fun _ hrules hnames => forest_write h hrules hnames,
    fun _ => forest_write h rfl fun row _ => Alias.Table.resolveName_empty row.tag⟩

/-- Operators, spaces and quotes in values and texts, a climb, and an element with placeholders. -/
def crowded : List Element :=
  [{ tag := "Grid".toList
     attributes := [("Tag".toList, "a.b > \"c\" #d".toList), ("x:Key".toList, [])]
     children := [
       { tag := "Style".toList
         children := [
           { tag := "Setter".toList
             attributes := [("Property".toList, "=".toList), ("Value".toList, " ".toList)] }] },
       { tag := "my:Text_1".toList, text := some "one + two ^ 'three'*4".toList }] },
   { tag := "Border".toList, text := some [] }]

theorem forest_write_crowded : Writable crowded ∧
    ({ aliases := .empty } : Expander).forest (write crowded) = .ok crowded := by
  have h : Writable crowded := {
    ne_nil := by decide
    length_le := by decide
    legible := by decide
    text_at_leaves := by simp [crowded, Element.TextAtLeavesAll, Element.TextAtLeaves]
    no_escape := by decide }
  exact ⟨h, (forest_write_eq_ok crowded h).2 _⟩

end Outline
end Shorthand
