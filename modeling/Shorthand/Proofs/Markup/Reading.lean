import Shorthand.Proofs.Markup.Verbatim
import Shorthand.Proofs.Outline.Elements

/-! # Markup that is read back

The markup is read line by line. A line is cut at its double quotes, so that names and values alternate
as far as attributes go, and the lines are nested from the last one back: a closing tag begins a level and
an opening tag ends it. Main statement: whatever the indent, markup is read back to the forest that was
rendered, when names, values and texts keep clear of the characters that end them. -/

namespace Shorthand

namespace Markup
open Text.Lines (tidy isBreak)

/-! ## The reader -/

/-- The attributes that the pieces of a line between double quotes begin with, and the text after them. -/
def readAttributes : List Text → List Attribute × Text
  | (' ' :: name) :: value :: pieces =>
    ((name.dropLast, value) :: (readAttributes pieces).1, (readAttributes pieces).2)
  | pieces => ([], ['"'].intercalate pieces)

def goesOn (c : Char) : Bool := c != ' ' && c != '>'

/-- The line that begins with an opening, by what follows its attributes. -/
def Line.ofEnd? (tag : Text) (attributes : List Attribute) : Text → Option Line
  | [' ', '/', '>'] => some (.empty tag attributes)
  | ['>'] => some (.opening tag attributes)
  | '>' :: content => some (.text tag attributes (content.takeWhile (· ≠ '<')))
  | _ => none

/-- Reads a line from its first tag on. -/
def Line.readOpening? (text : Text) : Option Line :=
  let (attributes, rest) := readAttributes (List.splitOn '"' (text.dropWhile goesOn))
  ofEnd? (text.takeWhile goesOn) attributes rest

def Line.read? (text : Text) : Option Line :=
  match text.dropWhile (· ≠ '<') with
  | _ :: '/' :: tag => some (.closing tag.dropLast)
  | _ :: rest => readOpening? rest
  | [] => none

/-- Puts a line in front of what has been read of each level, the innermost level first. -/
def nestStep (line : Line) : List (List Element) → Option (List (List Element))
  | level :: outer =>
    match line, outer with
    | .empty tag attributes, _ => some (({ tag, attributes } :: level) :: outer)
    | .text tag attributes content, _ =>
      some (({ tag, attributes, text := some content } :: level) :: outer)
    | .closing _, _ => some ([] :: level :: outer)
    | .opening tag attributes, next :: outer =>
      some (({ tag, attributes, children := level } :: next) :: outer)
    | .opening _ _, [] => none
  | [] => none

/-- What has been read of each level when the lines stand in front of what has been read already. -/
def nestFrom (levels : Option (List (List Element))) (lines : List Line) :
    Option (List (List Element)) :=
  lines.foldr (fun line levels => levels.bind (nestStep line)) levels

def nest (lines : List Line) : Option (List Element) :=
  match nestFrom (some [[]]) lines with
  | some [forest] => some forest
  | _ => none

def read (text : Text) : Option (List Element) :=
  (((text.splitOn '\n').filter (!·.isEmpty)).mapM Line.read?).bind nest

/-! ## Levels -/

mutual

/-- The lines of an element put this element on the level that is open. -/
theorem nestFrom_layout : ∀ (e : Element) (depth : Nat) (level : List Element)
    (outer : List (List Element)), e.TextAtLeaves →
      nestFrom (some (level :: outer)) ((layout depth e).map (·.2)) = some ((e :: level) :: outer)
  | ⟨tag, attributes, children, some content⟩, _, _, _, h => by
    cases children with
    | nil => rfl
    | cons child rest => exact absurd (h.1 (List.cons_ne_nil child rest)) nofun
  | ⟨tag, attributes, [], none⟩, _, _, _, _ => rfl
  | ⟨tag, attributes, child :: rest, none⟩, depth, level, outer, h => by
    have hchildren := nestFrom_layoutAll (child :: rest) (depth + 1) [] (level :: outer) h.2
    rw [List.append_nil] at hchildren
    rw [layout_parent, List.map_cons, List.map_append, nestFrom, List.foldr_cons, List.foldr_append]
    exact congrArg (Option.bind · (nestStep (.opening tag attributes))) hchildren

theorem nestFrom_layoutAll : ∀ (es : List Element) (depth : Nat) (level : List Element)
    (outer : List (List Element)), Element.TextAtLeavesAll es →
      nestFrom (some (level :: outer)) ((layoutAll depth es).map (·.2)) = some ((es ++ level) :: outer)
  | [], _, _, _, _ => rfl
  | e :: es, depth, level, outer, h => by
    have hrest := nestFrom_layoutAll es depth level outer h.2
    rw [layoutAll, List.map_append, nestFrom, List.foldr_append]
    exact (congrArg (nestFrom · _) hrest).trans (nestFrom_layout e depth (es ++ level) outer h.1)

end

/-- The lines of a forest nest to the forest. -/
theorem nest_layoutAll {forest : List Element} (h : Element.TextAtLeavesAll forest) :
    nest ((layoutAll 0 forest).map (·.2)) = some forest := by
  rw [nest, nestFrom_layoutAll forest 0 [] [] h, List.append_nil]

/-! ## Lines that can be told apart -/

/-- A character that ends neither a tag nor an attribute name and begins no reference. -/
def isNameChar (c : Char) : Bool :=
  !Unicode.isBlank c && !(['<', '>', '/', '=', '"', '&'].contains c)

/-- A tag and attributes that can be read back. -/
structure Clear (tag : Text) (attributes : List Attribute) : Prop where
  tag : ∀ c ∈ tag, isNameChar c = true
  name : ∀ a ∈ attributes, ∀ c ∈ a.1, isNameChar c = true
  value : ∀ a ∈ attributes, ∀ c ∈ a.2, c ∉ ['"', '\r', '\n']

theorem clear_iff {tag : Text} {attributes : List Attribute} : Clear tag attributes ↔
    (∀ c ∈ tag, isNameChar c = true) ∧ (∀ a ∈ attributes, ∀ c ∈ a.1, isNameChar c = true) ∧
      ∀ a ∈ attributes, ∀ c ∈ a.2, c ∉ ['"', '\r', '\n'] :=
  ⟨fun h => ⟨h.tag, h.name, h.value⟩, fun ⟨htag, hname, hvalue⟩ => ⟨htag, hname, hvalue⟩⟩

instance (tag : Text) (attributes : List Attribute) : Decidable (Clear tag attributes) :=
  decidable_of_iff (tag.all isNameChar = true ∧
      (∀ a ∈ attributes, a.1.all isNameChar = true) ∧
      ∀ a ∈ attributes, a.2.all (fun c => decide (c ∉ ['"', '\r', '\n'])) = true)
    (by simp only [List.all_eq_true, decide_eq_true_eq, clear_iff])

def ClearText (content : Text) : Prop := ∀ c ∈ content, c ∉ ['<', '\r', '\n']

instance (content : Text) : Decidable (ClearText content) :=
  decidable_of_iff (content.all (fun c => decide (c ∉ ['<', '\r', '\n'])) = true)
    (by simp only [List.all_eq_true, decide_eq_true_eq, ClearText])

def Line.Clear : Line → Prop
  | .empty tag attributes => Markup.Clear tag attributes
  | .text tag attributes content => Markup.Clear tag attributes ∧ ClearText content
  | .opening tag attributes => Markup.Clear tag attributes
  | .closing tag => Markup.Clear tag []

theorem isBreak_of_isNameChar {c : Char} (h : isNameChar c = true) : isBreak c = false := by
  rw [← Bool.not_eq_true]
  intro hbreak
  simp only [isBreak, Bool.or_eq_true, beq_iff_eq] at hbreak
  rcases hbreak with rfl | rfl <;> cases h

theorem isBreak_of_not_mem {c d : Char} (h : c ∉ [d, '\r', '\n']) : isBreak c = false := by
  simp only [List.mem_cons, not_or] at h
  simp [isBreak, h]

theorem not_mem_of_isNameChar {text : Text} (h : ∀ c ∈ text, isNameChar c = true) {d : Char}
    (hd : isNameChar d = false) : d ∉ text := by
  intro hm
  rw [h d hm] at hd
  cases hd

/-! ## Reading a line -/

/-- Attributes are read up to what cannot be an attribute. -/
theorem readAttributes_write {text : Text}
    (htext : readAttributes (List.splitOn '"' text) = ([], text)) : ∀ {attributes : List Attribute},
      (∀ a ∈ attributes, '"' ∉ a.1 ∧ '"' ∉ a.2) →
        readAttributes (List.splitOn '"' (attributes.flatMap writeAttribute ++ text)) = (attributes, text)
  | [], _ => htext
  | (name, value) :: attributes, h => by
    obtain ⟨hname, hvalue⟩ := h (name, value) List.mem_cons_self
    have hrest := readAttributes_write htext fun a ha => h a (List.mem_cons_of_mem _ ha)
    have hpiece : '"' ∉ ' ' :: (name ++ ['=']) := by simp [hname]
    have hwritten : ((name, value) :: attributes).flatMap writeAttribute ++ text =
        ' ' :: (name ++ ['=']) ++ '"' :: (value ++ '"' :: (attributes.flatMap writeAttribute ++ text)) := by
      simp [writeAttribute]
    rw [hwritten, List.splitOn_append_cons_self_of_not_mem hpiece,
      List.splitOn_append_cons_self_of_not_mem hvalue, readAttributes, hrest, List.dropLast_concat]

theorem readAttributes_end (text : Text) :
    readAttributes (List.splitOn '"' ('>' :: text)) = ([], '>' :: text) := by
  have hwhole : ['"'].intercalate (List.splitOn '"' ('>' :: text)) = '>' :: text := List.intercalate_splitOn '"'
  obtain ⟨p, ps, hp⟩ := List.exists_cons_of_ne_nil (List.splitOn_ne_nil '"' text)
  have hfields : List.splitOn '"' ('>' :: text) = ('>' :: p) :: ps := by
    rw [Text.splitOn_cons hp, if_neg (by decide)]
  rw [hfields] at hwhole ⊢
  rw [readAttributes, hwhole]
  intro name value pieces h
  cases h

theorem takeWhile_goesOn {tag : Text} (h : ∀ c ∈ tag, isNameChar c = true) {text : Text}
    (htext : ∀ c ∈ text.head?, goesOn c = false) :
    (tag ++ text).takeWhile goesOn = tag ∧ (tag ++ text).dropWhile goesOn = text := by
  have htag : ∀ c ∈ tag, goesOn c = true := by
    intro c hc
    have hspace : c ≠ ' ' := fun he => not_mem_of_isNameChar h (d := ' ') rfl (he ▸ hc)
    have hend : c ≠ '>' := fun he => not_mem_of_isNameChar h (d := '>') rfl (he ▸ hc)
    simp [goesOn, hspace, hend]
  exact Text.takeWhile_append_dropWhile htag htext

/-- An opening is read up to what follows its attributes. -/
theorem readOpening?_write {tag : Text} {attributes : List Attribute} (h : Clear tag attributes)
    {text : Text} (htext : readAttributes (List.splitOn '"' text) = ([], text))
    (hhead : ∀ c ∈ text.head?, goesOn c = false) :
    Line.readOpening? (tag ++ (attributes.flatMap writeAttribute ++ text)) =
      Line.ofEnd? tag attributes text := by
  have hquotes : ∀ a ∈ attributes, '"' ∉ a.1 ∧ '"' ∉ a.2 := fun a ha =>
    ⟨not_mem_of_isNameChar (h.name a ha) rfl, fun hm => h.value a ha '"' hm List.mem_cons_self⟩
  have hrest : ∀ c ∈ (attributes.flatMap writeAttribute ++ text).head?, goesOn c = false := by
    cases attributes with
    | nil => exact hhead
    | cons a as =>
      intro c hc
      cases hc
      rfl
  obtain ⟨htake, hdrop⟩ := takeWhile_goesOn h.tag hrest
  rw [Line.readOpening?, htake, hdrop, readAttributes_write htext hquotes]

theorem read?_append {before text : Text} (hbefore : '<' ∉ before) {c : Char} (hc : c ≠ '/') :
    Line.read? (before ++ '<' :: c :: text) = Line.readOpening? (c :: text) := by
  rw [Line.read?, (Text.takeWhile_ne_append hbefore (c :: text)).2]
  split
  · rename_i heq
    cases heq
    exact absurd rfl hc
  · rename_i heq
    cases heq
    rfl
  · rename_i heq
    cases heq

theorem read?_closing {before : Text} (hbefore : '<' ∉ before) (tag : Text) :
    Line.read? (before ++ closing tag) = some (.closing tag) := by
  rw [closing, List.cons_append, Line.read?, (Text.takeWhile_ne_append hbefore _).2]
  exact congrArg (some <| Line.closing ·) List.dropLast_concat

theorem read?_opening {before : Text} (hbefore : '<' ∉ before) {tag : Text}
    {attributes : List Attribute} (h : Clear tag attributes) {text : Text}
    (htext : readAttributes (List.splitOn '"' text) = ([], text))
    (hhead : ∃ c rest, text = c :: rest ∧ goesOn c = false ∧ c ≠ '/') :
    Line.read? (before ++ (writeOpening tag attributes ++ text)) = Line.ofEnd? tag attributes text := by
  obtain ⟨c, rest, rfl, hc, hslash⟩ := hhead
  have hread := readOpening?_write h htext fun d hd => by cases hd; exact hc
  -- what follows the angle bracket is a character of the tag, the space of an attribute, or `c`
  obtain ⟨d, more, hmore, hd⟩ : ∃ d more,
      tag ++ (attributes.flatMap writeAttribute ++ c :: rest) = d :: more ∧ d ≠ '/' := by
    cases tag with
    | cons d tag =>
      exact ⟨d, _, rfl, fun he => not_mem_of_isNameChar h.tag (d := '/') rfl (he ▸ List.mem_cons_self)⟩
    | nil =>
      cases attributes with
      | cons a as => exact ⟨' ', _, rfl, by decide⟩
      | nil => exact ⟨c, rest, rfl, hslash⟩
  rw [hmore] at hread
  rw [writeOpening, List.append_assoc, List.cons_append, hmore, read?_append hbefore hd, hread]

/-- A line is read back, whatever its padding. -/
theorem read?_write {before : Text} (hbefore : '<' ∉ before) {l : Line} (h : l.Clear) :
    Line.read? (before ++ l.write) = some l := by
  cases l with
  | empty tag attributes =>
    exact read?_opening hbefore h rfl ⟨' ', _, rfl, rfl, by decide⟩
  | text tag attributes content =>
    have hread := read?_opening hbefore h.1 (readAttributes_end (content ++ closing tag))
      ⟨'>', _, rfl, rfl, by decide⟩
    have hcontent : '<' ∉ content := fun hm => h.2 '<' hm List.mem_cons_self
    have htake : (content ++ closing tag).takeWhile (· ≠ '<') = content :=
      (Text.takeWhile_ne_append hcontent _).1
    obtain ⟨d, more, hmore⟩ : ∃ d more, content ++ closing tag = d :: more :=
      List.exists_cons_of_ne_nil (by simp [closing])
    rw [Line.write, List.append_assoc, List.cons_append, hread]
    rw [hmore] at htake ⊢
    rw [Line.ofEnd?, htake]
    intro hnil
    cases hnil
  | opening tag attributes =>
    exact read?_opening hbefore h rfl ⟨'>', _, rfl, rfl, by decide⟩
  | closing tag => exact read?_closing hbefore tag

/-! ## Lines of a clear forest -/

theorem isBreak_writeOpening {tag : Text} {attributes : List Attribute} (h : Clear tag attributes) :
    ∀ c ∈ writeOpening tag attributes, isBreak c = false := by
  intro c hc
  rw [writeOpening, List.cons_append, List.mem_cons, List.mem_append, List.mem_flatMap] at hc
  rcases hc with rfl | hc | ⟨a, ha, hc⟩
  · rfl
  · exact isBreak_of_isNameChar (h.tag c hc)
  · simp only [writeAttribute, List.cons_append, List.append_assoc, List.mem_cons, List.mem_append,
      List.not_mem_nil, or_false] at hc
    rcases hc with rfl | hc | rfl | rfl | hc | rfl
    · rfl
    · exact isBreak_of_isNameChar (h.name a ha c hc)
    · rfl
    · rfl
    · exact isBreak_of_not_mem (h.value a ha c hc)
    · rfl

theorem isBreak_closing {tag : Text} (h : ∀ c ∈ tag, isNameChar c = true) :
    ∀ c ∈ closing tag, isBreak c = false := by
  intro c hc
  simp only [closing, List.cons_append, List.mem_cons, List.mem_append, List.not_mem_nil,
    or_false] at hc
  rcases hc with rfl | rfl | hc | rfl
  · rfl
  · rfl
  · exact isBreak_of_isNameChar (h c hc)
  · rfl

theorem Line.Clear.no_break {l : Line} (h : l.Clear) : ∀ c ∈ l.write, isBreak c = false := by
  intro c hc
  cases l with
  | empty tag attributes =>
    have hend : ∀ c ∈ [' ', '/', '>'], isBreak c = false := by simp [isBreak]
    exact (List.mem_append.1 hc).elim (isBreak_writeOpening h c) (hend c)
  | text tag attributes content =>
    rw [Line.write, List.append_assoc, List.cons_append, List.mem_append, List.mem_cons,
      List.mem_append] at hc
    rcases hc with hc | rfl | hc | hc
    · exact isBreak_writeOpening h.1 c hc
    · rfl
    · exact isBreak_of_not_mem (h.2 c hc)
    · exact isBreak_closing h.1.tag c hc
  | opening tag attributes =>
    have hend : ∀ c ∈ ['>'], isBreak c = false := by simp [isBreak]
    exact (List.mem_append.1 hc).elim (isBreak_writeOpening h c) (hend c)
  | closing tag => exact isBreak_closing h.tag c hc

theorem Line.Clear.decodeNames_eq_self {l : Line} (h : l.Clear) : l.decodeNames = l := by
  have hdecode : ∀ {name : Text}, (∀ c ∈ name, isNameChar c = true) →
      Reference.decode name = name := by
    intro name hname
    exact Reference.decode_eq_self_of_not_mem (not_mem_of_isNameChar hname rfl)
  have hnames : ∀ {tag : Text} {attributes : List Attribute}, Markup.Clear tag attributes →
      ∀ name ∈ tag :: attributes.map (·.1), Reference.decode name = name := by
    intro tag attributes hclear name hname
    rcases List.mem_cons.1 hname with rfl | hname
    · exact hdecode hclear.tag
    · obtain ⟨a, ha, rfl⟩ := List.mem_map.1 hname
      exact hdecode (hclear.name a ha)
  refine Line.decodeNames_eq_self fun name hname => ?_
  cases l with
  | empty tag attributes => exact hnames h name hname
  | text tag attributes content =>
    rcases List.mem_append.1 hname with hname | hname
    · exact hnames h.1 name hname
    · exact hnames h.1 name (List.mem_cons.2 (.inl (List.mem_singleton.1 hname)))
  | opening tag attributes => exact hnames h name hname
  | closing tag => exact hnames h name hname

def ClearRow (row : OutlineRow) : Prop :=
  Clear row.tag row.attributes ∧ ∀ content ∈ row.text, ClearText content

instance (row : OutlineRow) : Decidable (ClearRow row) :=
  inferInstanceAs (Decidable (_ ∧ _))

/-- The lines of clear rows are clear. -/
theorem yields_clear : Yields ClearRow Line.Clear where
  empty _ h := h.1
  text _ content h htext := ⟨h.1, h.2 content htext⟩
  opening _ h := h.1
  closing _ h := ⟨h.1.tag, nofun, nofun⟩

/-! ## Reading what was rendered -/

structure Recoverable (indent : Text) (forest : List Element) : Prop where
  indent : ∀ c ∈ indent, c ∉ ['<', '&', '\r', '\n']
  row : ∀ row ∈ Outline.ofForest forest, ClearRow row
  leaves : Element.TextAtLeavesAll forest

theorem mapM_read?_padded {indent : Text} (hindent : '<' ∉ indent) : ∀ {lines : List (Nat × Line)},
    (∀ line ∈ lines, line.2.Clear) →
      (lines.map (padded indent)).mapM Line.read? = some (lines.map (·.2))
  | [], _ => rfl
  | line :: lines, h => by
    have hpadding : '<' ∉ padding indent line.1 := mt mem_of_mem_padding hindent
    have hline := read?_write hpadding (h line List.mem_cons_self)
    have hlines := mapM_read?_padded hindent fun l hl => h l (List.mem_cons_of_mem line hl)
    rw [List.map_cons, List.mapM_cons, padded, hline, hlines]
    rfl

theorem read_written {indent : Text} {forest : List Element} (h : Recoverable indent forest) :
    read (tidy (written indent (layoutAll 0 forest))) = some forest := by
  cases forest with
  | nil => rfl
  | cons e es =>
    have hbreak : ∀ c ∈ indent, isBreak c = false := by
      intro c hc
      have hmem := h.indent c hc
      simp only [List.mem_cons, not_or] at hmem
      simp [isBreak, hmem]
    have hindent : '<' ∉ indent := fun hm => h.indent '<' hm List.mem_cons_self
    have hclear := forall_layoutAll yields_clear (e :: es) 0 h.row
    have hlines : ∀ l ∈ (layoutAll 0 (e :: es)).map (padded indent), Text.Lines.IsLine l := by
      intro l hl
      obtain ⟨line, hline, rfl⟩ := List.mem_map.1 hl
      exact isLine_padded hbreak (hclear line hline).no_break
    have hne : (layoutAll 0 (e :: es)).map (padded indent) ≠ [] := by
      simp [layoutAll, layout_ne_nil]
    have hfilter : ((layoutAll 0 (e :: es)).map (padded indent)).filter (!·.isEmpty) =
        (layoutAll 0 (e :: es)).map (padded indent) := by
      refine List.filter_eq_self.2 fun l hl => ?_
      simpa using (hlines l hl).ne_nil
    rw [read, written, Text.Lines.splitOn_tidy hne hlines, hfilter, mapM_read?_padded hindent hclear]
    exact nest_layoutAll h.leaves

/-- **Markup determines the forest.** The reader, which knows neither the forest nor the indent, gives
back the forest that was rendered, so no two forests have the same markup. -/
theorem read_render :
    (∀ indent forest, Recoverable indent forest → read (render indent forest) = some forest) ∧
    ∀ indent indent' forest forest', Recoverable indent forest → Recoverable indent' forest' →
      render indent forest = render indent' forest' → forest = forest' := by
  have hread : ∀ indent forest, Recoverable indent forest →
      read (render indent forest) = some forest := by
    intro indent forest h
    have hampersand : '&' ∉ indent := fun hm => h.indent '&' hm (by simp)
    have hclear := forall_layoutAll yields_clear forest 0 h.row
    rw [render_eq hampersand,
      map_decodeNames_eq_self fun line hline => (hclear line hline).decodeNames_eq_self]
    exact read_written h
  refine ⟨hread, fun indent indent' forest forest' h h' heq => ?_⟩
  have hforest := hread indent forest h
  rw [heq, hread indent' forest' h'] at hforest
  exact (Option.some.inj hforest).symm

/-- Elements that differ only in what is empty, and contents that look like markup. -/
def deceptive (text : Option Text) : List Element :=
  [{ tag := "a;".toList
     attributes := [("x;y".toList, []), ("x'".toList, "</b> b=/> &quot;".toList)]
     children := [
      { tag := "b".toList },
      { tag := "b".toList, text := text },
      { tag := "b".toList, text := some " &amp;lt; /> ".toList },
      { tag := "b".toList, children := [{ tag := "b".toList, text := some "&lt;".toList }] }] },
   { tag := "#".toList }]

theorem textAtLeavesAll_deceptive (text : Option Text) : Element.TextAtLeavesAll (deceptive text) := by
  simp [deceptive, Element.TextAtLeavesAll, Element.TextAtLeaves]

theorem read_deceptive : Recoverable "> /".toList (deceptive (some [])) ∧
    Recoverable "> /".toList (deceptive none) ∧
    read (render "> /".toList (deceptive (some []))) = some (deceptive (some [])) ∧
    render "> /".toList (deceptive (some [])) ≠ render "> /".toList (deceptive none) := by
  have hsome : Recoverable "> /".toList (deceptive (some [])) :=
    ⟨by simp, by decide, textAtLeavesAll_deceptive _⟩
  have hnone : Recoverable "> /".toList (deceptive none) :=
    ⟨by simp, by decide, textAtLeavesAll_deceptive _⟩
  refine ⟨hsome, hnone, read_render.1 _ _ hsome, fun heq => ?_⟩
  exact absurd (read_render.2 _ _ _ _ hsome hnone heq) (by decide)

end Markup
end Shorthand
