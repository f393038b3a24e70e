import Shorthand.Proofs.Element.AttributeList

/-! # Every form of an attribute is read back

An attribute is written as its name alone, or as its name and its value, which stands bare, between quotes
of one kind or between braces of its own. Attributes are put together with any number of spaces between
them. The reader cuts at all of these spaces and at those in the values. Behind a space in a value stands
either the only closing quote, at the end, or a surplus of closing braces, so the piece is glued back; a
whole attribute has neither and stays apart. Main statement: `parse_writeSpaced`. -/

namespace Shorthand.AttributeList

inductive Form where
  /-- The name alone. -/
  | bare
  /-- The value behind an equals sign. -/
  | plain
  /-- The value between two of the given quotes. -/
  | quoted (quote : Char)
  /-- The value behind an equals sign, with the braces that it has around it. -/
  | braced
deriving DecidableEq, Repr

/-- Begins with an opening brace that is matched by a closing brace at the end and not before. -/
structure Braced (value : Text) : Prop where
  head : value.head? = some '\x7b'
  within : ∀ n < value.length, 0 < n → (value.take n).count '\x7d' < (value.take n).count '\x7b'
  closed : value.count '\x7d' = value.count '\x7b'

instance (value : Text) : Decidable (Braced value) :=
  decidable_of_iff (value.head? = some '\x7b' ∧
      (∀ n < value.length, 0 < n → (value.take n).count '\x7d' < (value.take n).count '\x7b') ∧
      value.count '\x7d' = value.count '\x7b')
    ⟨fun ⟨head, within, closed⟩ => ⟨head, within, closed⟩, fun h => ⟨h.head, h.within, h.closed⟩⟩

namespace Form

def writeValue (value : Text) : Form → Text
  | bare => []
  | plain => '=' :: value
  | quoted quote => '=' :: quote :: (value ++ [quote])
  | braced => '=' :: value

def Admits (value : Text) : Form → Prop
  | bare => value = []
  | plain => value ≠ [] ∧ ∀ c ∈ value, Unicode.isBlank c = false ∧ c ∉ ['\'', '"', '\x7b', '\x7d']
  | quoted quote => quote ∈ ['\'', '"'] ∧ quote ∉ value ∧ value.count '\x7d' ≤ value.count '\x7b'
  | braced => Braced value

instance (value : Text) : (form : Form) → Decidable (form.Admits value)
  | bare => inferInstanceAs (Decidable (value = []))
  | plain => decidable_of_iff (value ≠ [] ∧ value.all (fun c =>
      decide (Unicode.isBlank c = false ∧ c ∉ ['\'', '"', '\x7b', '\x7d'])) = true)
    (by simp only [List.all_eq_true, decide_eq_true_eq, Admits])
  | quoted quote => inferInstanceAs (Decidable (quote ∈ ['\'', '"'] ∧ quote ∉ value ∧
      value.count '\x7d' ≤ value.count '\x7b'))
  | braced => inferInstanceAs (Decidable (Braced value))

end Form

/-- An attribute with the form that it is written in, and how many spaces more than one stand behind it
when another one follows. -/
structure Entry where
  name : Text
  value : Text
  form : Form
  gap : Nat := 0
deriving DecidableEq, Repr

namespace Entry

def pair (e : Entry) : Attribute := (e.name, e.value)

def write (e : Entry) : Text := e.name ++ e.form.writeValue e.value

/-- The name is not empty and holds no blank, equals sign, quote or brace, and the form admits the value. -/
structure Writable (e : Entry) : Prop where
  name_ne_nil : e.name ≠ []
  name : ∀ c ∈ e.name, Unicode.isBlank c = false ∧ c ∉ ['=', '\'', '"', '\x7b', '\x7d']
  admits : e.form.Admits e.value

instance (e : Entry) : Decidable e.Writable :=
  decidable_of_iff (e.name ≠ [] ∧
      e.name.all (fun c =>
        decide (Unicode.isBlank c = false ∧ c ∉ ['=', '\'', '"', '\x7b', '\x7d'])) = true ∧
      e.form.Admits e.value)
    (by
      simp only [List.all_eq_true, decide_eq_true_eq]
      exact ⟨fun ⟨hne, hname, hadmits⟩ => ⟨hne, hname, hadmits⟩,
        fun h => ⟨h.name_ne_nil, h.name, h.admits⟩⟩)

end Entry

/-- Attributes in their forms, at least one space between each two. -/
def writeSpaced : List Entry → Text
  | [] => []
  | [e] => e.write
  | e :: f :: es => e.write ++ List.replicate (e.gap + 1) ' ' ++ writeSpaced (f :: es)

/-! ## Pieces that are glued and pieces that are not -/

/-- A text whose tails behind its spaces all continue a value goes whole into the first piece. -/
theorem glued_of_tails {rest : Text} {gs : List Text} (h : glued rest = [] :: gs) : ∀ {text : Text},
    (∀ x y, text = x ++ ' ' :: y → continuesValue y = true) → glued (text ++ rest) = text :: gs
  | [], _ => h
  | c :: text, htails => by
    have hrest := @glued_of_tails _ _ h text fun x y he => htails (c :: x) y (congrArg (c :: ·) he)
    by_cases hc : c = ' '
    · subst hc
      have hspace := glued_space hrest
      rwa [if_pos (htails [] text rfl)] at hspace
    · exact glued_cons hc hrest

/-- More spaces only make empty pieces. -/
theorem glued_spaces {rest g : Text} {gs : List Text} (h : glued rest = g :: gs)
    (hg : continuesValue g = false) : ∀ k : Nat,
      glued (List.replicate (k + 1) ' ' ++ rest) = [] :: (List.replicate k [] ++ g :: gs)
  | 0 => by
    have hspace := glued_space h
    rwa [hg] at hspace
  | k + 1 => by
    have hspace := glued_space (glued_spaces h hg k)
    rwa [if_neg (by decide)] at hspace

theorem continuesValue_of_lone_quote {quote : Char} (hquote : quote ∈ ['\'', '"']) {text : Text}
    (h : quote ∉ text) : continuesValue (text ++ [quote]) = true := by
  have hcount : (text ++ [quote]).count quote = 1 := by
    rw [List.count_append, List.count_eq_zero.2 h, List.count_singleton_self]
  simp only [List.mem_cons, List.not_mem_nil, or_false] at hquote
  rcases hquote with rfl | rfl <;> simp [continuesValue, hcount]

theorem continuesValue_of_surplus {text : Text} (h : text.count '\x7b' < text.count '\x7d') :
    continuesValue text = true := by
  simp [continuesValue, h]

/-- A piece stands alone when it has no surplus of closing braces, ends with no lone quote, and has an equals
sign or no quotes. -/
theorem continuesValue_eq_false {piece : Text} (hbraces : piece.count '\x7d' ≤ piece.count '\x7b')
    (hlast : ∀ quote ∈ ['\'', '"'], piece.getLast? = some quote → piece.count quote ≠ 1)
    (hequals : '=' ∈ piece ∨ ∀ quote ∈ ['\'', '"'], quote ∉ piece) : continuesValue piece = false := by
  have hsingle := hlast '\'' (by decide)
  have hdouble := hlast '"' (by decide)
  have hmany : ((1 < piece.count '\'' || 1 < piece.count '"') && !piece.contains '=') = false := by
    rcases hequals with hequals | hnone
    · simp [hequals]
    · simp [List.count_eq_zero.2 (hnone '\'' (by decide)), List.count_eq_zero.2 (hnone '"' (by decide))]
  rw [continuesValue, hmany]
  simp only [Bool.false_or, Bool.or_eq_false_iff, Bool.and_eq_false_iff, beq_eq_false_iff_ne,
    decide_eq_false_iff_not, Nat.not_lt]
  exact ⟨⟨(Decidable.em _).symm.imp_right fun h he => hdouble he h,
    (Decidable.em _).symm.imp_right fun h he => hsingle he h⟩, hbraces⟩

/-! ## Values in braces -/

namespace Braced
variable {value : Text}

/-- Up to any place within there are more opening braces than closing ones. -/
theorem count_lt (h : Braced value) {u v : Text} (he : value = u ++ v) (hu : u ≠ []) (hv : v ≠ []) :
    u.count '\x7d' < u.count '\x7b' := by
  have hlength : u.length < value.length := by
    rw [he, List.length_append]
    exact Nat.lt_add_of_pos_right (List.length_pos_iff.2 hv)
  have hwithin := h.within u.length hlength (List.length_pos_iff.2 hu)
  rwa [he, List.take_left] at hwithin

theorem getLast? (h : Braced value) : value.getLast? = some '\x7d' := by
  have hne : value ≠ [] := by
    rintro rfl
    cases h.head
  have he := (List.dropLast_concat_getLast hne).symm
  have hclosed := h.closed
  -- a lone opening brace would not be closed
  have hinit : value.dropLast ≠ [] := by
    intro hnil
    have hhead := h.head
    rw [hnil, List.nil_append] at he
    rw [he] at hhead hclosed
    rw [Option.some.inj hhead] at hclosed
    exact absurd hclosed (by decide)
  have hlt := h.count_lt he hinit (List.cons_ne_nil _ _)
  rw [he, List.count_append, List.count_append] at hclosed
  have hlast : '\x7d' ∈ [value.getLast hne] := List.count_pos_iff.1 (by omega)
  rw [List.getLast?_eq_some_getLast hne, List.mem_singleton.1 hlast]

/-- Behind a space there are more closing braces than opening ones. -/
theorem surplus (h : Braced value) {x y : Text} (he : value = x ++ ' ' :: y) :
    y.count '\x7b' < y.count '\x7d' := by
  have hx : x ≠ [] := by
    rintro rfl
    have hhead := h.head
    rw [he] at hhead
    cases hhead
  have hlt := h.count_lt he hx (List.cons_ne_nil ' ' y)
  have hclosed := h.closed
  rw [he, List.count_append, List.count_append, List.count_cons_of_ne (by decide),
    List.count_cons_of_ne (by decide)] at hclosed
  omega

end Braced

/-! ## What stands at the ends -/

/-- Not empty, with neither a blank nor a quote at an end. -/
structure Firm (value : Text) : Prop where
  ne_nil : value ≠ []
  ends : ∀ c, c ∈ value.head? ∨ c ∈ value.getLast? → Unicode.isBlank c = false ∧ c ∉ ['\'', '"']

theorem firm_of_plain {value : Text} (h : Form.plain.Admits value) : Firm value where
  ne_nil := h.1
  ends c hc := by
    obtain ⟨hblank, hno⟩ := h.2 c (hc.elim List.mem_of_mem_head? List.mem_of_mem_getLast?)
    exact ⟨hblank, fun hm => hno (List.mem_append_left ['\x7b', '\x7d'] hm)⟩

theorem Braced.firm {value : Text} (h : Braced value) : Firm value where
  ne_nil := by
    rintro rfl
    cases h.head
  ends c hc := by
    rw [h.head, h.getLast?] at hc
    rcases hc with hc | hc <;> cases hc <;> decide

theorem Firm.trim_eq {value : Text} (h : Firm value) : value.trim = value :=
  Text.trim_eq_self (fun c hc => (h.ends c (.inl hc)).1) fun c hc => (h.ends c (.inr hc)).1

theorem Firm.unquote_eq {value : Text} (h : Firm value) : unquote value = value := by
  obtain ⟨c, rest, rfl⟩ := List.exists_cons_of_ne_nil h.ne_nil
  have hno := (h.ends c (.inl rfl)).2
  simp only [List.mem_cons, List.not_mem_nil, or_false] at hno
  rw [unquote, if_neg fun hq => hno hq.1]

theorem mem_of_quote {quote : Char} (h : quote ∈ ['\'', '"']) :
    quote ∈ ['=', '\'', '"', '\x7b', '\x7d'] := by
  simp only [List.mem_cons, List.not_mem_nil, or_false] at h ⊢
  exact .inr (h.elim .inl fun h => .inr (.inl h))

theorem not_isBlank_of_quote {quote : Char} (h : quote ∈ ['\'', '"']) : Unicode.isBlank quote = false := by
  simp only [List.mem_cons, List.not_mem_nil, or_false] at h
  rcases h with rfl | rfl <;> decide

theorem trim_quoted {quote : Char} (h : quote ∈ ['\'', '"']) (value : Text) :
    Text.trim (quote :: (value ++ [quote])) = quote :: (value ++ [quote]) := by
  refine Text.trim_eq_self (fun c hc => ?_) fun c hc => ?_
  · cases hc
    exact not_isBlank_of_quote h
  · rw [← List.cons_append, List.getLast?_concat] at hc
    cases hc
    exact not_isBlank_of_quote h

theorem unquote_quoted {quote : Char} (h : quote ∈ ['\'', '"']) (value : Text) :
    unquote (quote :: (value ++ [quote])) = value := by
  simp only [List.mem_cons, List.not_mem_nil, or_false] at h
  rw [unquote, if_pos ⟨h, List.getLast?_concat⟩, List.dropLast_concat]

/-! ## One written attribute -/

theorem exists_of_append_eq_space {w x y : Text} : ∀ {u : Text}, ' ' ∉ u →
    u ++ w = x ++ ' ' :: y → ∃ x', w = x' ++ ' ' :: y
  | [], _, h => ⟨x, h⟩
  | c :: u, hu, h => by
    obtain ⟨hc, hu⟩ := not_or.1 (mt List.mem_cons.2 hu)
    cases x with
    | nil => exact absurd (List.cons.inj h).1.symm hc
    | cons d x => exact exists_of_append_eq_space hu (List.cons.inj h).2

namespace Entry

/-- Behind an equals sign a firm value ends a written attribute. -/
theorem getLast?_of_firm {e : Entry} (hwrite : e.write = e.name ++ '=' :: e.value) (hfirm : Firm e.value) :
    ∀ c ∈ e.write.getLast?, Unicode.isBlank c = false ∧ c ∉ ['\'', '"'] := by
  intro c hc
  rw [hwrite, List.getLast?_append, List.getLast?_cons, Option.mem_def] at hc
  refine hfirm.ends c (.inr ?_)
  cases hlast : e.value.getLast? with
  | none => exact absurd (List.getLast?_eq_none_iff.1 hlast) hfirm.ne_nil
  | some d => simpa [hlast] using hc

namespace Writable
variable {e : Entry} (h : e.Writable)
include h

theorem not_mem_name {c : Char} (hc : c ∈ ['=', '\'', '"', '\x7b', '\x7d']) : c ∉ e.name :=
  fun hm => (h.name c hm).2 hc

theorem count_write {c : Char} (hc : c ∈ ['=', '\'', '"', '\x7b', '\x7d']) :
    e.write.count c = (e.form.writeValue e.value).count c := by
  rw [write, List.count_append, List.count_eq_zero.2 (h.not_mem_name hc), Nat.zero_add]

/-- Behind each space in a written attribute stands the tail of its value. -/
theorem continuesValue_tail {x y : Text} (he : e.write = x ++ ' ' :: y) : continuesValue y = true := by
  have hspace : ' ' ∉ e.name := fun hm => absurd (h.name ' ' hm).1 (by decide)
  obtain ⟨x, he⟩ := exists_of_append_eq_space hspace he
  have hadmits := h.admits
  cases hform : e.form with
  | bare =>
    rw [hform] at he
    exact absurd he.symm (List.append_ne_nil_of_right_ne_nil x nofun)
  | plain =>
    rw [hform] at he hadmits
    obtain ⟨x, he⟩ := exists_of_append_eq_space (u := ['=']) (by decide) he
    have hblank := hadmits.2 ' ' (he ▸ List.mem_append_right x List.mem_cons_self)
    exact absurd hblank.1 (by decide)
  | quoted quote =>
    rw [hform] at he hadmits
    obtain ⟨hquote, hvalue, -⟩ := hadmits
    have hne : ' ' ≠ quote := by
      rintro rfl
      exact absurd hquote (by decide)
    obtain ⟨x, he⟩ := exists_of_append_eq_space (u := ['=', quote]) (by simp [hne]) he
    -- the closing quote ends the tail, and the value has no other
    rcases List.eq_nil_or_concat y with rfl | ⟨y, d, rfl⟩
    · exact absurd (List.singleton_inj.1 (List.append_inj_right' he rfl)).symm hne
    · rw [List.concat_eq_append] at he ⊢
      obtain ⟨he, hd⟩ := List.append_inj' (he.trans (List.append_assoc x (' ' :: y) [d]).symm) rfl
      rw [← List.singleton_inj.1 hd]
      refine continuesValue_of_lone_quote hquote fun hm => hvalue ?_
      rw [he]
      exact List.mem_append_right x (List.mem_cons_of_mem ' ' hm)
  | braced =>
    rw [hform] at he hadmits
    obtain ⟨x, he⟩ := exists_of_append_eq_space (u := ['=']) (by decide) he
    exact continuesValue_of_surplus (Braced.surplus hadmits he)

/-- A written attribute does not end with a blank, nor with a quote that it holds only once. -/
theorem getLast?_write : ∀ c ∈ e.write.getLast?,
    Unicode.isBlank c = false ∧ (c ∈ ['\'', '"'] → e.write.count c ≠ 1) := by
  intro c hc
  have hadmits := h.admits
  cases hform : e.form with
  | bare =>
    rw [write, hform, Form.writeValue, List.append_nil] at hc
    have hname := h.name c (List.mem_of_mem_getLast? hc)
    exact ⟨hname.1, fun hm => absurd (mem_of_quote hm) hname.2⟩
  | plain =>
    rw [hform] at hadmits
    have hlast := getLast?_of_firm (by rw [write, hform]; rfl) (firm_of_plain hadmits) c hc
    exact ⟨hlast.1, fun hm => absurd hm hlast.2⟩
  | quoted quote =>
    rw [hform] at hadmits
    obtain ⟨hquote, hvalue, -⟩ := hadmits
    have hlast : e.write.getLast? = some quote := by
      rw [write, hform, Form.writeValue, ← List.cons_append, ← List.cons_append, ← List.append_assoc,
        List.getLast?_concat]
    rw [hlast] at hc
    cases hc
    have hequals : c ≠ '=' := by
      rintro rfl
      exact absurd hquote (by decide)
    refine ⟨not_isBlank_of_quote hquote, fun _ => ?_⟩
    rw [h.count_write (mem_of_quote hquote), hform, Form.writeValue]
    simp [List.count_eq_zero.2 hvalue, hequals.symm]
  | braced =>
    rw [hform] at hadmits
    have hlast := getLast?_of_firm (by rw [write, hform]; rfl) (Braced.firm hadmits) c hc
    exact ⟨hlast.1, fun hm => absurd hm hlast.2⟩

/-- A written attribute is not glued to what stands before it. -/
theorem continuesValue_write : continuesValue e.write = false := by
  have hadmits := h.admits
  refine continuesValue_eq_false ?_ (fun quote hquote hlast => (h.getLast?_write quote hlast).2 hquote) ?_
  · rw [h.count_write (by decide), h.count_write (by decide)]
    cases hform : e.form with
    | bare => exact Nat.le_refl _
    | plain =>
      rw [hform] at hadmits
      have hnone : '\x7d' ∉ e.value := fun hm => (hadmits.2 _ hm).2 (by decide)
      simp [Form.writeValue, List.count_eq_zero.2 hnone]
    | quoted quote =>
      rw [hform] at hadmits
      obtain ⟨hquote, -, hcount⟩ := hadmits
      simp only [List.mem_cons, List.not_mem_nil, or_false] at hquote
      rcases hquote with rfl | rfl <;> simpa [Form.writeValue] using hcount
    | braced =>
      rw [hform] at hadmits
      simpa [Form.writeValue] using Nat.le_of_eq hadmits.closed
  · cases hform : e.form with
    | bare =>
      rw [write, hform, Form.writeValue, List.append_nil]
      exact .inr fun quote hquote => h.not_mem_name (mem_of_quote hquote)
    | _ =>
      rw [write, hform]
      exact .inl (List.mem_append_right e.name List.mem_cons_self)

theorem trim_name : e.name.trim = e.name :=
  Text.trim_eq_self (fun c hc => (h.name c (List.mem_of_mem_head? hc)).1)
    fun c hc => (h.name c (List.mem_of_mem_getLast? hc)).1

theorem attribute?_of_value {written : Text} (hwrite : e.write = e.name ++ '=' :: written)
    (htrim : written.trim = written) (hunquote : unquote written = e.value) :
    attribute? e.write = some e.pair := by
  have hsplit := Text.splitOnce?_append (h.not_mem_name (c := '=') (by decide)) written
  rw [attribute?, hwrite, hsplit, Option.getD_some]
  simp only [h.trim_name, htrim, hunquote]
  rw [if_neg (by simpa using h.name_ne_nil)]
  rfl

/-- A written attribute is read back. -/
theorem attribute?_write : attribute? e.write = some e.pair := by
  have hadmits := h.admits
  cases hform : e.form with
  | bare =>
    rw [hform] at hadmits
    have hvalue : e.value = [] := hadmits
    have hsplit := Text.splitOnce?_eq_none (h.not_mem_name (c := '=') (by decide))
    rw [attribute?, write, hform, Form.writeValue, List.append_nil, hsplit, Option.getD_none]
    simp only [h.trim_name]
    rw [if_neg (by simpa using h.name_ne_nil), pair, hvalue]
    rfl
  | plain =>
    rw [hform] at hadmits
    have hfirm := firm_of_plain hadmits
    exact h.attribute?_of_value (by rw [write, hform]; rfl) hfirm.trim_eq hfirm.unquote_eq
  | quoted quote =>
    rw [hform] at hadmits
    exact h.attribute?_of_value (by rw [write, hform]; rfl) (trim_quoted hadmits.1 e.value)
      (unquote_quoted hadmits.1 e.value)
  | braced =>
    rw [hform] at hadmits
    have hfirm := Braced.firm hadmits
    exact h.attribute?_of_value (by rw [write, hform]; rfl) hfirm.trim_eq hfirm.unquote_eq

end Writable

theorem write_ne_nil {e : Entry} (h : e.Writable) : e.write ≠ [] :=
  List.append_ne_nil_of_left_ne_nil h.name_ne_nil _

end Entry

/-! ## Written lists -/

theorem writeSpaced_ne_nil {e : Entry} (h : e.Writable) (es : List Entry) : writeSpaced (e :: es) ≠ [] := by
  cases es with
  | nil => exact Entry.write_ne_nil h
  | cons f es =>
    rw [writeSpaced, List.append_assoc]
    exact List.append_ne_nil_of_left_ne_nil (Entry.write_ne_nil h) _

theorem head?_writeSpaced {e : Entry} (h : e.Writable) (es : List Entry) :
    (writeSpaced (e :: es)).head? = e.name.head? := by
  obtain ⟨c, rest, hname⟩ := List.exists_cons_of_ne_nil h.name_ne_nil
  cases es <;> simp [writeSpaced, Entry.write, hname]

theorem getLast?_writeSpaced : ∀ {es : List Entry}, (∀ e ∈ es, e.Writable) →
    ∀ c ∈ (writeSpaced es).getLast?, Unicode.isBlank c = false
  | [], _, _, hc => nomatch hc
  | [e], h, c, hc => ((h e List.mem_cons_self).getLast?_write c hc).1
  | e :: f :: es, h, c, hc => by
    have htail : ∀ x ∈ f :: es, x.Writable := fun x hx => h x (List.mem_cons_of_mem e hx)
    have hne := writeSpaced_ne_nil (htail f List.mem_cons_self) es
    refine getLast?_writeSpaced htail c ?_
    rw [writeSpaced, List.getLast?_append, List.getLast?_eq_some_getLast hne, Option.some_or] at hc
    rw [List.getLast?_eq_some_getLast hne]
    exact hc

/-- Nothing stands around a written list that could be trimmed. -/
theorem trim_writeSpaced {es : List Entry} (h : ∀ e ∈ es, e.Writable) :
    (writeSpaced es).trim = writeSpaced es := by
  refine Text.trim_eq_self (fun c hc => ?_) (getLast?_writeSpaced h)
  cases es with
  | nil => cases hc
  | cons e es =>
    have he := h e List.mem_cons_self
    rw [head?_writeSpaced he] at hc
    exact (he.name c (List.mem_of_mem_head? hc)).1

/-- The first attribute is the first piece, and the others are read off the other pieces. -/
theorem glued_writeSpaced : ∀ {e : Entry} {es : List Entry}, (∀ x ∈ e :: es, x.Writable) →
    ∃ gs, glued (writeSpaced (e :: es)) = e.write :: gs ∧ gs.filterMap attribute? = es.map Entry.pair
  | e, [], h => by
    have hlone := @glued_of_tails [] _ rfl _ fun _ _ => (h e List.mem_cons_self).continuesValue_tail
    rw [List.append_nil] at hlone
    exact ⟨[], hlone, rfl⟩
  | e, f :: es, h => by
    obtain ⟨he, htail⟩ := List.forall_mem_cons.1 h
    have hf := htail f List.mem_cons_self
    obtain ⟨gs, hglued, hread⟩ := glued_writeSpaced htail
    have hspaces := glued_spaces hglued hf.continuesValue_write e.gap
    have hempty : (List.replicate e.gap []).filterMap attribute? = [] :=
      List.filterMap_eq_nil_iff.2 fun piece hp => by
        rw [List.eq_of_mem_replicate hp]
        rfl
    refine ⟨List.replicate e.gap [] ++ f.write :: gs, ?_, ?_⟩
    · rw [writeSpaced, List.append_assoc]
      exact glued_of_tails hspaces fun _ _ => he.continuesValue_tail
    · rw [List.filterMap_append, hempty, List.filterMap_cons_some hf.attribute?_write, hread]
      rfl

/-- **Attributes are read back in every form**, with their values as they were: whatever spaces, equals
signs, quotes and braces these hold, in whatever forms the attributes beside them are written, and however
many spaces stand between them. -/
theorem parse_writeSpaced {es : List Entry} (h : ∀ e ∈ es, e.Writable) :
    parse (writeSpaced es) = es.map Entry.pair := by
  rw [parse, pieces, trim_writeSpaced h]
  cases es with
  | nil => rfl
  | cons e es =>
    obtain ⟨gs, hglued, hread⟩ := glued_writeSpaced h
    change (glued (writeSpaced (e :: es))).filterMap attribute? = _
    rw [hglued, List.filterMap_cons_some (h e List.mem_cons_self).attribute?_write, hread]
    rfl

/-- Attributes in all forms, whose values look like the ends of others. -/
def mixedForms : List Entry :=
  [{ name := "IsOn".toList, value := [], form := .bare, gap := 2 },
    { name := "a".toList, value := " it is \"x y\" =\x7b ".toList, form := .quoted '\'' },
    { name := "b".toList, value := "=c=d".toList, form := .plain },
    { name := "c".toList, value := "it's '  k='v\x7b\x7d".toList, form := .quoted '"', gap := 1 },
    { name := "d".toList, value := "\x7bBinding \x7b'a b' \x7d, q=\"\x7d".toList, form := .braced },
    { name := "e".toList, value := [], form := .quoted '\'' }]

theorem parse_mixedForms : (∀ e ∈ mixedForms, e.Writable) ∧
    writeSpaced mixedForms = ("IsOn   a=' it is \"x y\" =\x7b ' b==c=d c=\"it's '  k='v\x7b\x7d\"" ++
      "  d=\x7bBinding \x7b'a b' \x7d, q=\"\x7d e=''").toList ∧
    parse (writeSpaced mixedForms) = mixedForms.map Entry.pair :=
  ⟨by decide, by decide, parse_writeSpaced (by decide)⟩

end Shorthand.AttributeList
