import Shorthand.Expansion
import Shorthand.Proofs.Markup.Lines
import Shorthand.Proofs.Text.Lines

/-! # Markup as it was typed

Values and texts come out as they are, while the references in tags and in attribute names are replaced,
since these are not encoded. Each one that is replaced takes a mark away, and tidying takes none away.
Main statement: a forest is rendered as it stands exactly when none of its shown names holds a known
reference. -/

namespace Shorthand.Markup
open Reference (decode marks HoldsKnown)
open Text.Lines (tidy)

/-- The tags and the attribute names that the markup of a forest shows. -/
def shownNames (forest : List Element) : List Text := (layoutAll 0 forest).flatMap (·.2.names)

/-- The markup of a forest, with decoded names and everything else as it is. -/
theorem render_eq {indent : Text} (h : '&' ∉ indent) (forest : List Element) :
    render indent forest =
      tidy (written indent ((layoutAll 0 forest).map fun line => (line.1, line.2.decodeNames))) := by
  rw [render, decode_encoded h]

theorem marks_tidy (text : Text) : marks (tidy text) = marks text := by
  refine Text.Lines.countP_tidy (fun c hc => ?_) text
  simp only [Text.Lines.isBreak, Bool.or_eq_true, beq_iff_eq] at hc
  rcases hc with rfl | rfl <;> rfl

/-! ## Names -/

theorem marks_flatten_decode_le : ∀ names : List Text,
    marks (names.map decode).flatten ≤ marks names.flatten
  | [] => Nat.le_refl _
  | name :: names => by
    rw [List.map_cons, List.flatten_cons, List.flatten_cons, Reference.marks_append,
      Reference.marks_append]
    exact Nat.add_le_add (Reference.marks_decode_le name) (marks_flatten_decode_le names)

/-- When no marks are lost in all, no name is changed. -/
theorem decode_eq_self_of_flatten : ∀ {names : List Text},
    marks names.flatten ≤ marks (names.map decode).flatten → ∀ name ∈ names, decode name = name
  | first :: names, h, name, hname => by
    have hfirst := Reference.marks_decode_le first
    have hrest := marks_flatten_decode_le names
    rw [List.map_cons, List.flatten_cons, List.flatten_cons, Reference.marks_append,
      Reference.marks_append] at h
    rcases List.mem_cons.1 hname with rfl | hname
    · exact Reference.decode_eq_self_of_marks (by omega)
    · exact decode_eq_self_of_flatten (by omega) name hname

theorem marks_writeAttributes (attributes : List Attribute) :
    marks (attributes.flatMap writeAttribute) =
      marks (attributes.map (·.1)).flatten + marks (attributes.map (·.2)).flatten := by
  induction attributes with
  | nil => rfl
  | cons a attributes ih =>
    have ha : marks (writeAttribute a) = marks a.1 + marks a.2 := by simp [writeAttribute, marks]
    rw [List.flatMap_cons, Reference.marks_append, ha, ih, List.map_cons, List.map_cons,
      List.flatten_cons, List.flatten_cons, Reference.marks_append, Reference.marks_append]
    omega

namespace Line

theorem names_decodeNames (l : Line) : l.decodeNames.names = l.names.map decode := by
  cases l <;> simp [names, decodeNames, Function.comp_def]

theorem contents_decodeNames (l : Line) : l.decodeNames.contents = l.contents := by
  cases l <;> simp [contents, decodeNames, Function.comp_def]

theorem decodeNames_eq_self {l : Line} (h : ∀ name ∈ l.names, decode name = name) :
    l.decodeNames = l := by
  have hattributes : ∀ {attributes : List Attribute},
      (∀ name ∈ attributes.map (·.1), decode name = name) →
        attributes.map (fun a => (decode a.1, a.2)) = attributes := by
    intro attributes hnames
    refine (List.map_congr_left fun a ha => ?_).trans (List.map_id _)
    exact congrArg (·, a.2) (hnames a.1 (List.mem_map_of_mem ha))
  cases l <;> simp only [names, decodeNames, List.mem_cons, List.mem_append, forall_eq_or_imp] at h ⊢
  case empty => rw [h.1, hattributes h.2]
  case text => rw [h _ (.inl (.inl rfl)), hattributes fun name hname => h name (.inl (.inr hname))]
  case opening => rw [h.1, hattributes h.2]
  case closing => rw [h.1]

/-- The marks on a line are those of its names and of its contents. -/
theorem marks_write (l : Line) :
    marks l.write = marks l.names.flatten + marks l.contents.flatten := by
  have hopening : ∀ tag attributes, marks (writeOpening tag attributes) =
      marks tag + marks (attributes.map (·.1)).flatten + marks (attributes.map (·.2)).flatten := by
    intro tag attributes
    have htag : marks ('<' :: tag) = marks tag := by simp [marks]
    rw [writeOpening, Reference.marks_append, htag, marks_writeAttributes]
    omega
  have hclosing : ∀ tag, marks (Markup.closing tag) = marks tag := by
    intro tag
    simp [Markup.closing, marks]
  cases l with
  | empty tag attributes =>
    have hend : marks [' ', '/', '>'] = 0 := rfl
    simp only [write, names, contents, Reference.marks_append, List.flatten_cons, hopening, hend]
    omega
  | text tag attributes content =>
    have hcontent : marks ('>' :: content) = marks content := by simp [marks]
    simp only [write, names, contents, Reference.marks_append, List.flatten_cons, List.flatten_append,
      List.flatten_nil, List.append_nil, List.cons_append, hopening, hclosing, hcontent]
    omega
  | opening tag attributes =>
    have hend : marks ['>'] = 0 := rfl
    simp only [write, names, contents, Reference.marks_append, List.flatten_cons, hopening, hend]
    omega
  | closing tag =>
    rw [write, hclosing]
    simp [names, contents, marks]

end Line

theorem marks_written (indent : Text) (lines : List (Nat × Line)) :
    marks (written indent lines) = marks (lines.flatMap (·.2.names)).flatten +
      marks (lines.flatMap (·.2.contents)).flatten +
      marks (lines.flatMap fun line => padding indent line.1) := by
  induction lines with
  | nil => rfl
  | cons line lines ih =>
    have hend : marks ['\n'] = 0 := rfl
    rw [written] at ih ⊢
    simp only [List.map_cons, List.flatMap_cons, List.flatten_append, Reference.marks_append, padded,
      Line.marks_write, ih, hend]
    omega

theorem map_decodeNames_eq_self {lines : List (Nat × Line)}
    (h : ∀ line ∈ lines, line.2.decodeNames = line.2) :
    lines.map (fun line => (line.1, line.2.decodeNames)) = lines :=
  (List.map_congr_left fun line hline => congrArg (line.1, ·) (h line hline)).trans (List.map_id _)

/-- Decoded names leave as many marks only when none is changed. -/
theorem decode_eq_self_of_written {indent : Text} {lines : List (Nat × Line)}
    (h : marks (written indent (lines.map fun line => (line.1, line.2.decodeNames))) =
      marks (written indent lines)) : ∀ name ∈ lines.flatMap (·.2.names), decode name = name := by
  have hnames : (lines.map fun line => (line.1, line.2.decodeNames)).flatMap (·.2.names) =
      (lines.flatMap (·.2.names)).map decode := by
    rw [List.flatMap_map, List.map_flatMap]
    simp only [Line.names_decodeNames]
  rw [marks_written, marks_written, hnames, List.flatMap_map, List.flatMap_map] at h
  simp only [Line.contents_decodeNames] at h
  exact decode_eq_self_of_flatten (by omega)

/-- **Markup shows what was typed exactly when no shown name holds a known reference.** In any case the
values and the texts of the forest are shown as they are. -/
theorem render_verbatim_iff {indent : Text} (h : '&' ∉ indent) (forest : List Element) :
    render indent forest =
      tidy (written indent ((layoutAll 0 forest).map fun line => (line.1, line.2.decodeNames))) ∧
    (render indent forest = tidy (written indent (layoutAll 0 forest)) ↔
      ∀ name ∈ shownNames forest, ¬ HoldsKnown name) := by
  refine ⟨render_eq h forest, ?_⟩
  simp only [← Reference.decode_eq_self_iff]
  rw [render_eq h]
  constructor
  · intro heq
    have hmarks := congrArg marks heq
    rw [marks_tidy, marks_tidy] at hmarks
    exact decode_eq_self_of_written hmarks
  · intro hnames
    have hlines : ∀ line ∈ layoutAll 0 forest, line.2.decodeNames = line.2 := by
      intro line hline
      refine Line.decodeNames_eq_self fun name hname => ?_
      exact hnames name (List.mem_flatMap.2 ⟨line, hline, hname⟩)
    rw [map_decodeNames_eq_self hlines]

/-- References in a value and in texts, one of them written twice over, and ampersands in names. -/
def referring : List Element :=
  [{ tag := "a&b".toList
     attributes := [("R&D".toList, "&lt;&quot;&#65;".toList)]
     children := [{ tag := "p;".toList, text := some "&amp;amp; < \r\n &eacute;".toList }] }]

theorem render_referring : '&' ∉ "  ".toList ∧
    (∀ name ∈ shownNames referring, ¬ HoldsKnown name) ∧
    render "  ".toList referring = tidy (written "  ".toList (layoutAll 0 referring)) := by
  have hnames : ∀ name ∈ shownNames referring, ¬ HoldsKnown name := by
    simp only [← Reference.decode_eq_self_iff]
    decide
  exact ⟨by decide, hnames, (render_verbatim_iff (by decide) referring).2.2 hnames⟩

/-- A reference in a tag is replaced. -/
theorem render_replaces_in_tag : ∃ forest,
    ({ aliases := .empty } : Expander).forest "a&amp;b".toList = .ok forest ∧
    '&' ∉ "    ".toList ∧
    render "    ".toList forest = "<a&b />".toList ∧
    tidy (written "    ".toList (layoutAll 0 forest)) = "<a&amp;b />".toList ∧
    render "    ".toList forest ≠ tidy (written "    ".toList (layoutAll 0 forest)) := by
  have hcheck : ({} : Rules).check "a&amp;b".toList = .ok () := by rfl
  have hterms : ({ aliases := .empty } : Expander).terms "a&amp;b".toList =
      [{ name := "a&amp;b".toList }] := by rfl
  refine ⟨[{ tag := "a&amp;b".toList }], ?_, by decide, by decide, by decide, by decide⟩
  rw [Expander.forest, hcheck, hterms]
  rfl

end Shorthand.Markup
