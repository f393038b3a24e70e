import Shorthand.Element.OfTerm
import Shorthand.Proofs.Text.Characters
import Shorthand.Proofs.Token.Writing

/-! # Characters of elements

The characters of the element of a term are those of the term, and those that elements get beside them: the
fixed names of attributes, what a reference to a style is written with, and the digits of numbers. Main
statement: `holds_ofTerm?`. -/

namespace Shorthand

/-- Texts that attributes are written with, whatever the term says. -/
def fixedTexts : List Text :=
  [' '] :: nameAttribute :: styleAttribute :: styleReference [] :: Element.placeholderAttributes

/-- Holds of every character that elements get beside those of their terms. -/
structure Supplied (p : Char → Prop) : Prop where
  digit : ∀ c, c.isDigit = true → p c
  fixed : ∀ text ∈ fixedTexts, ∀ c ∈ text, p c

def Attribute.Holds (p : Char → Prop) (a : Attribute) : Prop := (∀ c ∈ a.1, p c) ∧ ∀ c ∈ a.2, p c

structure Term.Holds (p : Char → Prop) (t : Term) : Prop where
  name : ∀ c ∈ t.name, p c
  content : ∀ m ∈ t.modifiers, ∀ c ∈ m.content, p c

/-- Holds of every character of an element, its children aside. -/
structure Element.Holds (p : Char → Prop) (e : Element) : Prop where
  tag : ∀ c ∈ e.tag, p c
  attributes : ∀ a ∈ e.attributes, Attribute.Holds p a
  text : ∀ content ∈ e.text, ∀ c ∈ content, p c

variable {p : Char → Prop}

namespace AttributeList

theorem forall_mem_unquote {value : Text} (h : ∀ c ∈ value, p c) : ∀ c ∈ unquote value, p c := by
  unfold unquote
  split
  · exact h
  · split
    · exact fun c hc => h c (List.mem_cons_of_mem _ ((List.dropLast_sublist _).subset hc))
    · exact h

/-- Pieces are glued over spaces and nothing else. -/
theorem forall_mem_glue (hspace : p ' ') {ps : List Text} (h : ∀ piece ∈ ps, ∀ c ∈ piece, p c) :
    ∀ piece ∈ ps.foldr glueStep [], ∀ c ∈ piece, p c := by
  induction ps with
  | nil => exact nofun
  | cons piece ps ih =>
    obtain ⟨hpiece, hps⟩ := List.forall_mem_cons.1 h
    have hrest := ih hps
    rw [List.foldr_cons]
    cases hglued : ps.foldr glueStep [] with
    | nil => exact List.forall_mem_singleton.2 hpiece
    | cons next pieces =>
      rw [hglued] at hrest
      obtain ⟨hnext, hpieces⟩ := List.forall_mem_cons.1 hrest
      rw [glueStep]
      split
      · refine List.forall_mem_cons.2 ⟨List.forall_mem_append.2 ⟨hpiece, ?_⟩, hpieces⟩
        exact List.forall_mem_cons.2 ⟨hspace, hnext⟩
      · exact List.forall_mem_cons.2 ⟨hpiece, List.forall_mem_cons.2 ⟨hnext, hpieces⟩⟩

theorem holds_attribute? {piece : Text} (h : ∀ c ∈ piece, p c) {a : Attribute}
    (ha : attribute? piece = some a) : a.Holds p := by
  rw [attribute?] at ha
  have hcut : (∀ c ∈ ((piece.splitOnce? '=').getD (piece, [])).1, p c) ∧
      ∀ c ∈ ((piece.splitOnce? '=').getD (piece, [])).2, p c := by
    cases hsplit : piece.splitOnce? '=' with
    | none => exact ⟨h, nofun⟩
    | some cut =>
      exact ⟨fun c hc => h c ((Text.mem_of_splitOnce? hsplit).1 hc),
        fun c hc => h c ((Text.mem_of_splitOnce? hsplit).2 hc)⟩
  generalize (piece.splitOnce? '=').getD (piece, []) = cut at ha hcut
  obtain ⟨key, value⟩ := cut
  dsimp only at ha hcut
  split at ha
  · cases ha
  · cases ha
    exact ⟨fun c hc => hcut.1 c (Text.mem_of_mem_trimBy hc),
      forall_mem_unquote fun c hc => hcut.2 c (Text.mem_of_mem_trimBy hc)⟩

/-- The attributes of a list are written in its characters. -/
theorem holds_parse (hspace : p ' ') {list : Text} (h : ∀ c ∈ list, p c) :
    ∀ a ∈ parse list, a.Holds p := by
  intro a ha
  obtain ⟨piece, hpiece, hread⟩ := List.mem_filterMap.1 ha
  have hfields : ∀ f ∈ list.trim.splitOn ' ', ∀ c ∈ f, p c := fun f hf c hc =>
    h c (Text.mem_of_mem_trimBy (Text.mem_of_mem_splitOn hf hc))
  exact holds_attribute? (forall_mem_glue hspace hfields piece hpiece) hread

end AttributeList

theorem mem_styleReference {c : Char} {name : Text} (h : c ∈ styleReference name) :
    c ∈ name ∨ c ∈ styleReference [] := by
  rcases List.mem_append.1 h with h | h
  · rcases List.mem_append.1 h with h | h
    · exact .inr (List.mem_append_left _ (List.mem_append_left _ h))
    · exact .inl h
  · exact .inr (List.mem_append_right _ h)

theorem Supplied.holds_assignments (hp : Supplied p) {m : Modifier} (h : ∀ c ∈ m.content, p c) :
    ∀ a ∈ m.assignments, a.Holds p := by
  have hname := hp.fixed nameAttribute (by simp [fixedTexts])
  have hstyle := hp.fixed styleAttribute (by simp [fixedTexts])
  have hempty := hp.fixed (styleReference []) (by simp [fixedTexts])
  cases m with
  | id value => exact List.forall_mem_singleton.2 ⟨hname, h⟩
  | className value =>
    refine List.forall_mem_singleton.2 ⟨hstyle, fun c hc => ?_⟩
    exact (mem_styleReference hc).elim (h c) (hempty c)
  | attributes list =>
    exact AttributeList.holds_parse (hp.fixed [' '] List.mem_cons_self ' ' List.mem_cons_self) h
  | text content => exact nofun

namespace Element

theorem holds_assign {name value : Text} (hnew : Attribute.Holds p (name, value)) :
    ∀ {attributes : List Attribute}, (∀ a ∈ attributes, a.Holds p) →
      ∀ a ∈ assign name value attributes, a.Holds p
  | [], _ => List.forall_mem_singleton.2 hnew
  | (n, v) :: rest, h => by
    obtain ⟨hfirst, hrest⟩ := List.forall_mem_cons.1 h
    rw [assign]
    split
    · exact List.forall_mem_cons.2 ⟨⟨hfirst.1, hnew.2⟩, hrest⟩
    · exact List.forall_mem_cons.2 ⟨hfirst, holds_assign hnew hrest⟩

theorem Holds.setAttribute {e : Element} (h : e.Holds p) {name value : Text}
    (hnew : Attribute.Holds p (name, value)) : (e.setAttribute name value).Holds p :=
  { tag := h.tag, attributes := holds_assign hnew h.attributes, text := h.text }

theorem Holds.setText {e : Element} (h : e.Holds p) {text : Text} (htext : ∀ c ∈ text, p c) :
    (e.setText text).Holds p := by
  unfold Element.setText
  split
  · exact { tag := h.tag, attributes := h.attributes, text := fun content hc => by cases hc; exact htext }
  · exact h

/-- A fold of steps each of which keeps to the characters keeps to them. -/
theorem Holds.foldl {β : Type} {f : Element → β → Element} :
    ∀ {bs : List β} {e : Element}, (∀ b ∈ bs, ∀ e : Element, e.Holds p → (f e b).Holds p) →
      e.Holds p → (bs.foldl f e).Holds p
  | [], _, _, h => h
  | b :: bs, e, hf, h => by
    obtain ⟨hb, hbs⟩ := List.forall_mem_cons.1 hf
    rw [List.foldl_cons]
    exact Holds.foldl hbs (hb e h)

theorem Holds.apply (hp : Supplied p) {m : Modifier} (hm : ∀ c ∈ m.content, p c) {e : Element}
    (h : e.Holds p) : (e.apply m).Holds p := by
  have hfold : (m.assignments.foldl (fun e a => e.setAttribute a.1 a.2) e).Holds p :=
    h.foldl fun a ha e he => he.setAttribute (hp.holds_assignments hm a ha)
  unfold Element.apply
  split
  · exact h.setText hm
  · exact hfold

theorem Holds.withPlaceholders (hp : Supplied p) {e : Element} (h : e.Holds p) :
    e.withPlaceholders.Holds p := by
  unfold Element.withPlaceholders
  split
  · refine h.foldl fun name hname e he => ?_
    have hfixed := hp.fixed name (by simp [fixedTexts, hname])
    unfold assignIfMissing
    split
    · exact he.setAttribute ⟨hfixed, nofun⟩
    · exact he
  · exact h

/-- **The element of a term** holds the characters of the term and what elements get beside them. -/
theorem holds_ofTerm? (hp : Supplied p) {t : Term} (h : t.Holds p) {e : Element}
    (he : ofTerm? t = some e) : e.Holds p := by
  obtain ⟨blank, hblank, rfl⟩ := Option.map_eq_some_iff.1 he
  have hstart : blank.Holds p := by
    unfold create? at hblank
    split at hblank
    · cases hblank
    · cases hblank
      exact { tag := h.name, attributes := nofun, text := nofun }
  exact (hstart.foldl fun m hm _ he => he.apply hp (h.content m hm)).withPlaceholders hp

theorem Holds.numbered (hp : Supplied p) {e : Element} (h : e.Holds p) (index : Nat) :
    (e.numbered index).Holds p where
  tag := Text.forall_mem_number hp.digit index h.tag
  attributes := by
    refine List.forall_mem_map.2 fun a ha => ⟨(h.attributes a ha).1, ?_⟩
    exact Text.forall_mem_number hp.digit index (h.attributes a ha).2
  text := by
    intro content hc
    obtain ⟨own, hown, rfl⟩ := Option.map_eq_some_iff.1 hc
    exact Text.forall_mem_number hp.digit index (h.text own hown)

theorem Holds.withoutText {e : Element} (h : e.Holds p) : Element.Holds p { e with text := none } :=
  { tag := h.tag, attributes := h.attributes, text := nofun }

end Element
end Shorthand
