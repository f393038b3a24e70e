import Shorthand.Proofs.Assembly.Budget
import Shorthand.Proofs.Markup.Lines

/-! # Expansion as rendering of the forest

The markup of elements begins and ends with a bracket of its own, which no decoding and no tidying takes
away. So it is never empty, and an abbreviation has an expansion exactly when it has a forest. Main statement:
`expand_eq_render`. -/

namespace Shorthand

namespace Markup
open Reference (decode)

/-- Markup from its first bracket to its last, with single line feeds for line breaks. -/
structure Neat (markup : Text) : Prop where
  first : markup.head? = some '<'
  last : markup.getLast? = some '>'
  no_return : '\r' ∉ markup
  single : ¬ ['\n', '\n'] <:+: markup

theorem exists_encode (l : Line) : ∃ u, l.encode = '<' :: u ++ ['>'] := by
  cases l with
  | empty tag attributes =>
    exact ⟨tag ++ attributes.flatMap ofAttribute ++ [' ', '/'], by simp [Line.encode, opening]⟩
  | text tag attributes content =>
    refine ⟨tag ++ attributes.flatMap ofAttribute ++
      '>' :: content.flatMap Reference.encodeInText ++ '<' :: '/' :: tag, ?_⟩
    simp [Line.encode, opening, closing]
  | opening tag attributes =>
    exact ⟨tag ++ attributes.flatMap ofAttribute, by simp [Line.encode, opening]⟩
  | closing tag => exact ⟨'/' :: tag, by simp [Line.encode, closing]⟩

/-- The first line of an element stands as deep as the element. -/
theorem exists_layout_cons (depth : Nat) (e : Element) : ∃ l rest, layout depth e = (depth, l) :: rest := by
  obtain ⟨tag, attributes, children, text⟩ := e
  cases text with
  | some content => exact ⟨_, _, by rw [layout]⟩
  | none =>
    cases children with
    | nil => exact ⟨_, _, by rw [layout]⟩
    | cons child rest => exact ⟨_, _, layout_parent depth tag attributes child rest⟩

/-- Every line ends with a bracket. -/
theorem exists_lines_append (indent : Text) {lines : List (Nat × Line)} (h : lines ≠ []) :
    ∃ u, (lines.map fun line => padding indent line.1 ++ line.2.encode).flatMap (· ++ ['\n']) =
      u ++ ['>', '\n'] := by
  obtain ⟨front, ⟨depth, l⟩, rfl⟩ := List.eq_nil_or_concat lines |>.resolve_left h
  obtain ⟨u, hu⟩ := exists_encode l
  exact ⟨(front.map fun line => padding indent line.1 ++ line.2.encode).flatMap (· ++ ['\n']) ++
    (padding indent depth ++ '<' :: u), by simp [hu]⟩

theorem exists_encoded (indent : Text) {forest : List Element} (h : forest ≠ []) :
    ∃ u, encoded indent forest = '<' :: u ++ ['>', '\n'] := by
  obtain ⟨e, es, rfl⟩ := List.exists_cons_of_ne_nil h
  obtain ⟨l, rest, hl⟩ := exists_layout_cons 0 e
  obtain ⟨v, hv⟩ := exists_encode l
  have hlayout : layoutAll 0 (e :: es) = (0, l) :: (rest ++ layoutAll 0 es) := by
    rw [layoutAll, hl, List.cons_append]
  obtain ⟨u, hu⟩ := exists_lines_append indent (hlayout ▸ List.cons_ne_nil (0, l) _)
  rw [encoded, linesOfAll_eq, hu]
  cases u with
  | nil =>
    rw [hlayout] at hu
    simp [padding, hv] at hu
  | cons c u =>
    rw [hlayout] at hu
    have hc : '<' = c := by simpa [padding, hv] using congrArg List.head? hu
    exact ⟨u, by rw [hc]⟩

/-- The brackets at both ends stay, whatever stands between them. -/
theorem exists_render {forest : List Element} (h : forest ≠ []) (indent : Text) :
    ∃ text, render indent forest = '<' :: Text.Lines.collapse text ++ ['>'] := by
  obtain ⟨u, hu⟩ := exists_encoded indent h
  refine ⟨decode u, ?_⟩
  have hend : decode ['>', '\n'] = ['>', '\n'] := rfl
  rw [render, hu, List.cons_append, Reference.decode_cons (by decide),
    Reference.decode_append_cons (by decide), hend]
  exact Text.Lines.tidy_between rfl rfl (decode u)

theorem neat_render {forest : List Element} (h : forest ≠ []) (indent : Text) :
    Neat (render indent forest) := by
  obtain ⟨text, htext⟩ := exists_render h indent
  exact {
    first := by simp [htext]
    last := by rw [htext, List.getLast?_append, List.getLast?_singleton, Option.some_or]
    no_return := Text.Lines.not_mem_tidy _
    single := Text.Lines.not_infix_collapse _ }

end Markup

namespace Expander

theorem expand_of_forest_error {x : Expander} {abbreviation : Text} {e : ExpansionError}
    (h : x.forest abbreviation = .error e) : x.expand abbreviation = .error e := by
  rw [expand, h]

theorem expand_of_forest_aborted {x : Expander} {abbreviation : Text}
    (h : x.forest abbreviation = .aborted) : x.expand abbreviation = .aborted := by
  rw [expand, h]

theorem expand_of_forest {x : Expander} {abbreviation : Text} {forest : List Element}
    (h : x.forest abbreviation = .ok forest) :
    x.expand abbreviation = .ok (Markup.render x.indent forest) := by
  obtain ⟨text, htext⟩ := Markup.exists_render (forest_eq_ok h).1 x.indent
  simp [expand, h, htext]

theorem exists_forest_of_expand_eq_ok {x : Expander} {text markup : Text} (h : x.expand text = .ok markup) :
    ∃ forest, x.forest text = .ok forest ∧ markup = Markup.render x.indent forest := by
  cases hforest : x.forest text with
  | error e =>
    rw [expand_of_forest_error hforest] at h
    cases h
  | aborted =>
    rw [expand_of_forest_aborted hforest] at h
    cases h
  | ok forest =>
    rw [expand_of_forest hforest] at h
    cases h
    exact ⟨forest, rfl, rfl⟩

/-- Rendering never breaks off. -/
theorem expand_eq_aborted_iff {x : Expander} {abbreviation : Text} :
    x.expand abbreviation = .aborted ↔ x.forest abbreviation = .aborted := by
  refine ⟨fun h => ?_, expand_of_forest_aborted⟩
  cases hforest : x.forest abbreviation with
  | error e => simp [expand_of_forest_error hforest] at h
  | aborted => rfl
  | ok forest => simp [expand_of_forest hforest] at h

/-- **An abbreviation has an expansion exactly when it has a forest**: the errors are the same, both break off
alike, and the expansion is the markup of the forest. It begins and ends with a bracket of markup and holds no carriage
return and no two line feeds in a row, so no line break at its ends either. -/
theorem expand_eq_render (x : Expander) (abbreviation : Text) :
    (∀ e, x.expand abbreviation = .error e ↔ x.forest abbreviation = .error e) ∧
    (x.expand abbreviation = .aborted ↔ x.forest abbreviation = .aborted) ∧
    ∀ forest, x.forest abbreviation = .ok forest →
      x.expand abbreviation = .ok (Markup.render x.indent forest) ∧
      Markup.Neat (Markup.render x.indent forest) := by
  refine ⟨fun e => ⟨fun h => ?_, expand_of_forest_error⟩, expand_eq_aborted_iff, fun forest h =>
    ⟨expand_of_forest h, Markup.neat_render (forest_eq_ok h).1 x.indent⟩⟩
  cases hforest : x.forest abbreviation with
  | error e' =>
    rw [expand_of_forest_error hforest] at h
    cases h
    rfl
  | aborted => simp [expand_of_forest_aborted hforest] at h
  | ok forest => simp [expand_of_forest hforest] at h

end Expander
end Shorthand
