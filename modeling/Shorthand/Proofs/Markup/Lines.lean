import Shorthand.Markup.Render
import Shorthand.Outline
import Shorthand.Proofs.Markup.Reference
import Shorthand.Proofs.Text.Lines

/-! # Lines of markup

A forest is written line by line, each element on a line of its own or around the lines of its children.
The same lines can be written with their values and texts encoded. Main statement: the encoded markup of
a forest decodes to its lines, with everything as it is in the forest but the references in tags and in
attribute names (`decode_encoded`). -/

namespace Shorthand.Markup
open Reference (decode isBoundary)

/-- A line of markup without the padding in front of it: an element with nothing in it or with a text, or
one of the two tags around children. -/
inductive Line where
  | empty (tag : Text) (attributes : List Attribute)
  | text (tag : Text) (attributes : List Attribute) (content : Text)
  | opening (tag : Text) (attributes : List Attribute)
  | closing (tag : Text)
deriving DecidableEq, Repr

def writeAttribute (a : Attribute) : Text := ' ' :: a.1 ++ '=' :: '"' :: a.2 ++ ['"']

def writeOpening (tag : Text) (attributes : List Attribute) : Text :=
  '<' :: tag ++ attributes.flatMap writeAttribute

namespace Line

def write : Line → Text
  | .empty tag attributes => writeOpening tag attributes ++ [' ', '/', '>']
  | .text tag attributes content => writeOpening tag attributes ++ '>' :: content ++ Markup.closing tag
  | .opening tag attributes => writeOpening tag attributes ++ ['>']
  | .closing tag => Markup.closing tag

def encode : Line → Text
  | .empty tag attributes => Markup.opening tag attributes ++ [' ', '/', '>']
  | .text tag attributes content => Markup.opening tag attributes ++
      '>' :: content.flatMap Reference.encodeInText ++ Markup.closing tag
  | .opening tag attributes => Markup.opening tag attributes ++ ['>']
  | .closing tag => Markup.closing tag

def names : Line → List Text
  | .empty tag attributes => tag :: attributes.map (·.1)
  | .text tag attributes _ => tag :: attributes.map (·.1) ++ [tag]
  | .opening tag attributes => tag :: attributes.map (·.1)
  | .closing tag => [tag]

def contents : Line → List Text
  | .empty _ attributes => attributes.map (·.2)
  | .text _ attributes content => attributes.map (·.2) ++ [content]
  | .opening _ attributes => attributes.map (·.2)
  | .closing _ => []

/-- The line with the references in its names replaced. -/
def decodeNames : Line → Line
  | .empty tag attributes => .empty (decode tag) (attributes.map fun a => (decode a.1, a.2))
  | .text tag attributes content =>
    .text (decode tag) (attributes.map fun a => (decode a.1, a.2)) content
  | .opening tag attributes => .opening (decode tag) (attributes.map fun a => (decode a.1, a.2))
  | .closing tag => .closing (decode tag)

end Line

mutual

/-- The lines of an element that stands at the given depth, each with its own depth. -/
def layout (depth : Nat) : Element → List (Nat × Line)
  | ⟨tag, attributes, children, text⟩ =>
    match text, children with
    | some content, _ => [(depth, .text tag attributes content)]
    | none, [] => [(depth, .empty tag attributes)]
    | none, child :: rest =>
      (depth, .opening tag attributes) ::
        (layout (depth + 1) child ++ layoutAll (depth + 1) rest) ++ [(depth, .closing tag)]

def layoutAll (depth : Nat) : List Element → List (Nat × Line)
  | [] => []
  | e :: es => layout depth e ++ layoutAll depth es

end

theorem layout_parent (depth : Nat) (tag : Text) (attributes : List Attribute) (child : Element)
    (rest : List Element) : layout depth ⟨tag, attributes, child :: rest, none⟩ =
      (depth, .opening tag attributes) ::
        (layoutAll (depth + 1) (child :: rest) ++ [(depth, .closing tag)]) := by
  rw [layout, layoutAll, List.cons_append]

theorem layout_ne_nil (depth : Nat) (e : Element) : layout depth e ≠ [] := by
  obtain ⟨tag, attributes, children, text⟩ := e
  unfold layout
  split <;> exact nofun

/-- Rows of elements of which `P` holds give lines of which `R` holds. -/
structure Yields (P : OutlineRow → Prop) (R : Line → Prop) : Prop where
  empty : ∀ row, P row → R (.empty row.tag row.attributes)
  text : ∀ row content, P row → row.text = some content → R (.text row.tag row.attributes content)
  opening : ∀ row, P row → R (.opening row.tag row.attributes)
  closing : ∀ row, P row → R (.closing row.tag)

section Yields

variable {P : OutlineRow → Prop} {R : Line → Prop}

mutual

/-- Each line of an element comes of one of its rows. -/
theorem forall_layout (hyields : Yields P R) : ∀ (e : Element) (depth : Nat),
    (∀ row ∈ Outline.ofElement depth e, P row) → ∀ line ∈ layout depth e, R line.2
  | ⟨tag, attributes, children, text⟩, depth, h, line, hline => by
    rw [Outline.ofElement, List.forall_mem_cons] at h
    obtain ⟨hrow, hrows⟩ := h
    cases text with
    | some content =>
      rw [layout, List.mem_singleton] at hline
      rw [hline]
      exact hyields.text _ content hrow rfl
    | none =>
      cases children with
      | nil =>
        rw [layout, List.mem_singleton] at hline
        rw [hline]
        exact hyields.empty _ hrow
      | cons child rest =>
        rw [layout_parent, List.mem_cons, List.mem_append, List.mem_singleton] at hline
        rcases hline with rfl | hline | rfl
        · exact hyields.opening _ hrow
        · exact forall_layoutAll hyields (child :: rest) (depth + 1) hrows line hline
        · exact hyields.closing _ hrow

theorem forall_layoutAll (hyields : Yields P R) : ∀ (es : List Element) (depth : Nat),
    (∀ row ∈ Outline.ofForestAt depth es, P row) → ∀ line ∈ layoutAll depth es, R line.2
  | [], _, _, _, hline => nomatch hline
  | e :: es, depth, h, line, hline => by
    rw [Outline.ofForestAt, List.forall_mem_append] at h
    rw [layoutAll, List.mem_append] at hline
    rcases hline with hline | hline
    · exact forall_layout hyields e depth h.1 line hline
    · exact forall_layoutAll hyields es depth h.2 line hline

end

end Yields

def padded (indent : Text) (line : Nat × Line) : Text := padding indent line.1 ++ line.2.write

/-- Every line holds the character that begins a tag. -/
theorem lt_mem_padded (indent : Text) (line : Nat × Line) : '<' ∈ padded indent line := by
  obtain ⟨depth, l⟩ := line
  cases l <;> simp [padded, Line.write, writeOpening, closing]

def written (indent : Text) (lines : List (Nat × Line)) : Text :=
  (lines.map (padded indent)).flatMap (· ++ ['\n'])

/-! ## Encoded lines -/

mutual

theorem linesOf_eq (indent : Text) : ∀ (e : Element) (depth : Nat), linesOf indent depth e =
    (layout depth e).map fun line => padding indent line.1 ++ line.2.encode
  | ⟨tag, attributes, children, some content⟩, depth => by
    simp [linesOf, layout, Line.encode]
  | ⟨tag, attributes, [], none⟩, depth => by
    simp [linesOf, layout, Line.encode]
  | ⟨tag, attributes, child :: rest, none⟩, depth => by
    have hchild := linesOf_eq indent child (depth + 1)
    have hrest := linesOfAll_eq indent rest (depth + 1)
    simp [linesOf, layout, Line.encode, hchild, hrest]

/-- The markup of a forest is its layout, encoded. -/
theorem linesOfAll_eq (indent : Text) : ∀ (es : List Element) (depth : Nat),
    linesOfAll indent depth es =
      (layoutAll depth es).map fun line => padding indent line.1 ++ line.2.encode
  | [], _ => rfl
  | e :: es, depth => by
    rw [linesOfAll, layoutAll, linesOf_eq indent e depth, linesOfAll_eq indent es depth, List.map_append]

end

theorem decode_ofAttribute_append (a : Attribute) (text : Text) :
    decode (ofAttribute a ++ text) = writeAttribute (decode a.1, a.2) ++ decode text := by
  have hvalue := Reference.decode_flatMap_encodeInValue_append a.2 ('"' :: text)
  have hname := Reference.decode_append_cons (c := '=') rfl a.1
    ('"' :: (a.2.flatMap Reference.encodeInValue ++ '"' :: text))
  rw [Reference.decode_cons (by decide), Reference.decode_cons (by decide), hvalue,
    Reference.decode_cons (by decide)] at hname
  have hwritten : ofAttribute a ++ text =
      ' ' :: (a.1 ++ '=' :: '"' :: (a.2.flatMap Reference.encodeInValue ++ '"' :: text)) := by
    simp [ofAttribute]
  rw [hwritten, Reference.decode_cons (by decide), hname]
  simp [writeAttribute]

theorem decode_ofAttributes_append (text : Text) : ∀ attributes : List Attribute,
    decode (attributes.flatMap ofAttribute ++ text) =
      (attributes.map fun a => (decode a.1, a.2)).flatMap writeAttribute ++ decode text
  | [] => rfl
  | a :: attributes => by
    rw [List.flatMap_cons, List.append_assoc, decode_ofAttribute_append,
      decode_ofAttributes_append text attributes, List.map_cons, List.flatMap_cons, List.append_assoc]

/-- The opening of a tag in front of a character that is in no reference. -/
theorem decode_opening_append {c : Char} (hc : isBoundary c = true) (tag : Text)
    (attributes : List Attribute) (text : Text) :
    decode (opening tag attributes ++ c :: text) =
      writeOpening (decode tag) (attributes.map fun a => (decode a.1, a.2)) ++ decode (c :: text) := by
  have hrest := decode_ofAttributes_append (c :: text) attributes
  have htag : decode (tag ++ (attributes.flatMap ofAttribute ++ c :: text)) =
      decode tag ++ decode (attributes.flatMap ofAttribute ++ c :: text) := by
    cases attributes with
    | nil => exact Reference.decode_append_cons hc tag text
    | cons a as => exact Reference.decode_append_cons rfl tag _
  rw [opening, List.append_assoc, List.cons_append, Reference.decode_cons (by decide), htag, hrest,
    writeOpening, List.cons_append, List.cons_append, List.append_assoc]

theorem decode_closing_append (tag text : Text) :
    decode (closing tag ++ text) = closing (decode tag) ++ decode text := by
  have htag := Reference.decode_append_cons (c := '>') rfl tag text
  rw [Reference.decode_cons (by decide)] at htag
  have hwritten : closing tag ++ text = '<' :: '/' :: (tag ++ '>' :: text) := by simp [closing]
  rw [hwritten, Reference.decode_cons (by decide), Reference.decode_cons (by decide), htag]
  simp [closing]

/-- An encoded line decodes to the line with decoded names, whatever follows. -/
theorem decode_encode_append (l : Line) (text : Text) :
    decode (l.encode ++ text) = l.decodeNames.write ++ decode text := by
  cases l with
  | empty tag attributes =>
    have h := decode_opening_append (c := ' ') rfl tag attributes ('/' :: '>' :: text)
    rw [Reference.decode_cons (by decide), Reference.decode_cons (by decide),
      Reference.decode_cons (by decide)] at h
    simpa [Line.encode, Line.write, Line.decodeNames] using h
  | text tag attributes content =>
    have h := decode_opening_append (c := '>') rfl tag attributes
      (content.flatMap Reference.encodeInText ++ (closing tag ++ text))
    rw [Reference.decode_cons (by decide), Reference.decode_flatMap_encodeInText_append,
      decode_closing_append] at h
    simpa [Line.encode, Line.write, Line.decodeNames] using h
  | opening tag attributes =>
    have h := decode_opening_append (c := '>') rfl tag attributes text
    rw [Reference.decode_cons (by decide)] at h
    simpa [Line.encode, Line.write, Line.decodeNames] using h
  | closing tag => exact decode_closing_append tag text

theorem mem_of_mem_padding {c : Char} {indent : Text} {depth : Nat} (h : c ∈ padding indent depth) :
    c ∈ indent := by
  rw [padding, List.mem_flatten] at h
  obtain ⟨text, ht, hc⟩ := h
  rwa [List.eq_of_mem_replicate ht] at hc

/-- Lines that hold no break stay lines behind a padding that holds none. -/
theorem isLine_padded {indent : Text} (hindent : ∀ c ∈ indent, Text.Lines.isBreak c = false)
    {line : Nat × Line} (h : ∀ c ∈ line.2.write, Text.Lines.isBreak c = false) :
    Text.Lines.IsLine (padded indent line) where
  ne_nil := List.ne_nil_of_mem (lt_mem_padded indent line)
  no_break c hc := by
    rcases List.mem_append.1 hc with hc | hc
    · exact hindent c (mem_of_mem_padding hc)
    · exact h c hc

/-- The encoded markup of a forest decodes to its lines with decoded names. -/
theorem decode_encoded {indent : Text} (h : '&' ∉ indent) (forest : List Element) :
    decode (encoded indent forest) =
      written indent ((layoutAll 0 forest).map fun line => (line.1, line.2.decodeNames)) := by
  rw [encoded, linesOfAll_eq, written]
  induction layoutAll 0 forest with
  | nil => rfl
  | cons line lines ih =>
    have hpadding : '&' ∉ padding indent line.1 := mt mem_of_mem_padding h
    simp only [List.map_cons, List.flatMap_cons, List.append_assoc, padded]
    rw [Reference.decode_append_of_not_mem hpadding, decode_encode_append,
      List.singleton_append, Reference.decode_cons (by decide), ih]
    rfl

end Shorthand.Markup
