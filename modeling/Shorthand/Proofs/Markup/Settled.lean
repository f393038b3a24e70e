import Shorthand.Proofs.Element.Characters
import Shorthand.Proofs.Markup.Verbatim
import Shorthand.Proofs.Outline.Elements

/-! # Markup without breaks of its own

When neither the indent nor the elements hold a line break or a mark that begins a reference, the markup has
one line for each line of the layout, and each of these holds a character of markup. Main statement:
`splitOn_render`. -/

namespace Shorthand.Markup
open Reference (decode)
open Text.Lines (isBreak)

/-- A character that neither breaks a line nor begins a reference. -/
abbrev Quiet (c : Char) : Prop := c ∉ ['\r', '\n', '&']

theorem Quiet.not_isBreak {c : Char} (h : Quiet c) : isBreak c = false := by
  simp only [Quiet, List.mem_cons, List.not_mem_nil, or_false, not_or] at h
  simp [isBreak, h]

theorem decode_of_quiet {name : Text} (h : ∀ c ∈ name, Quiet c) : decode name = name :=
  Reference.decode_eq_self_of_not_mem fun hm => h '&' hm (by decide)

/-- The characters that lines of markup are written with. -/
def marking : Text := ['<', '>', '/', '=', '"', ' ']

variable {p : Char → Prop}

def Line.Holds (p : Char → Prop) : Line → Prop
  | .empty tag attributes => Element.Holds p { tag, attributes }
  | .text tag attributes content => Element.Holds p { tag, attributes, text := some content }
  | .opening tag attributes => Element.Holds p { tag, attributes }
  | .closing tag => Element.Holds p { tag }

/-- The lines of elements hold what the elements hold. -/
theorem yields_holds : Yields (fun row => row.bare.Holds p) (Line.Holds p) where
  empty _ h := { tag := h.tag, attributes := h.attributes, text := nofun }
  text _ _ h htext := { tag := h.tag, attributes := h.attributes, text := fun c hc => h.text c (htext.trans hc) }
  opening _ h := { tag := h.tag, attributes := h.attributes, text := nofun }
  closing _ h := { tag := h.tag, attributes := nofun, text := nofun }

namespace Line

theorem Holds.decodeNames_eq_self {l : Line} (h : l.Holds Quiet) : l.decodeNames = l := by
  have hnames : ∀ {e : Element}, e.Holds Quiet →
      ∀ name ∈ e.tag :: e.attributes.map (·.1), decode name = name := by
    intro e he
    refine List.forall_mem_cons.2 ⟨decode_of_quiet he.tag, List.forall_mem_map.2 fun a ha => ?_⟩
    exact decode_of_quiet (he.attributes a ha).1
  refine Line.decodeNames_eq_self fun name hname => ?_
  cases l with
  | empty tag attributes => exact hnames h name hname
  | text tag attributes content =>
    rcases List.mem_append.1 hname with hname | hname
    · exact hnames h name hname
    · exact hnames h name (List.mem_cons.2 (.inl (List.mem_singleton.1 hname)))
  | opening tag attributes => exact hnames h name hname
  | closing tag => exact hnames h name hname

section Write

variable (hmarking : ∀ c ∈ marking, p c)
include hmarking

theorem forall_mem_writeOpening {tag : Text} {attributes : List Attribute} (htag : ∀ c ∈ tag, p c)
    (hattributes : ∀ a ∈ attributes, a.Holds p) : ∀ c ∈ writeOpening tag attributes, p c := by
  have hown : ∀ a ∈ attributes, ∀ c ∈ writeAttribute a, p c := by
    intro a ha
    obtain ⟨hname, hvalue⟩ := hattributes a ha
    simp only [marking, List.forall_mem_cons] at hmarking
    simp only [writeAttribute, List.forall_mem_append, List.forall_mem_cons, List.cons_append]
    simp_all
  rw [writeOpening, List.forall_mem_append]
  refine ⟨List.forall_mem_cons.2 ⟨hmarking '<' (by decide), htag⟩, fun c hc => ?_⟩
  obtain ⟨a, ha, hc⟩ := List.mem_flatMap.1 hc
  exact hown a ha c hc

/-- A line holds no characters but those of its parts and of markup. -/
theorem forall_mem_write {l : Line} (h : l.Holds p) : ∀ c ∈ l.write, p c := by
  have hclosing : ∀ {tag : Text}, (∀ c ∈ tag, p c) → ∀ c ∈ Markup.closing tag, p c := by
    intro tag htag
    simp only [marking, List.forall_mem_cons] at hmarking
    simp only [Markup.closing, List.forall_mem_append, List.forall_mem_cons, List.cons_append]
    simp_all
  have hends : ∀ {ends : Text}, ends ⊆ marking → ∀ c ∈ ends, p c := fun hsub c hc => hmarking c (hsub hc)
  cases l with
  | empty tag attributes =>
    exact List.forall_mem_append.2 ⟨forall_mem_writeOpening hmarking h.tag h.attributes,
      hends (by decide)⟩
  | text tag attributes content =>
    refine List.forall_mem_append.2 ⟨List.forall_mem_append.2
      ⟨forall_mem_writeOpening hmarking h.tag h.attributes, ?_⟩, hclosing h.tag⟩
    exact List.forall_mem_cons.2 ⟨hmarking '>' (by decide), h.text content rfl⟩
  | opening tag attributes =>
    exact List.forall_mem_append.2 ⟨forall_mem_writeOpening hmarking h.tag h.attributes,
      hends (by decide)⟩
  | closing tag => exact hclosing h.tag

end Write

end Line

theorem no_break_of_quiet {l : Line} (h : l.Holds Quiet) : ∀ c ∈ l.write, isBreak c = false :=
  fun c hc => (Line.forall_mem_write (Text.forall_mem_of_all (by decide)) h c hc).not_isBreak

/-- **The lines of markup** are the lines of the layout. -/
theorem splitOn_render {indent : Text} (hindent : ∀ c ∈ indent, Quiet c) {forest : List Element}
    (hne : forest ≠ []) (h : ∀ row ∈ Outline.ofForest forest, row.bare.Holds Quiet) :
    (render indent forest).splitOn '\n' = (layoutAll 0 forest).map (padded indent) := by
  have hlayout := forall_layoutAll yields_holds forest 0 h
  have hmark : '&' ∉ indent := fun hm => hindent '&' hm (by decide)
  rw [render_eq hmark,
    map_decodeNames_eq_self fun line hline => (hlayout line hline).decodeNames_eq_self, written]
  refine Text.Lines.splitOn_tidy ?_ (List.forall_mem_map.2 fun line hline =>
    isLine_padded (fun c hc => (hindent c hc).not_isBreak) (no_break_of_quiet (hlayout line hline)))
  obtain ⟨e, es, rfl⟩ := List.exists_cons_of_ne_nil hne
  simp [layoutAll, layout_ne_nil]

/-- Each line of the markup holds the character that begins a tag. -/
theorem lt_mem_of_mem_splitOn_render {indent : Text} (hindent : ∀ c ∈ indent, Quiet c)
    {forest : List Element} (hne : forest ≠ []) (h : ∀ row ∈ Outline.ofForest forest, row.bare.Holds Quiet) :
    ∀ line ∈ (render indent forest).splitOn '\n', '<' ∈ line := by
  rw [splitOn_render hindent hne h]
  exact List.forall_mem_map.2 fun line _ => lt_mem_padded indent line

end Shorthand.Markup
