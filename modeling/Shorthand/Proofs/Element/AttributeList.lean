import Shorthand.Element.AttributeList
import Shorthand.Proofs.Text

/-! # Attribute lists that are written and read back

Each attribute is written with its value in single quotes. The reader cuts at every space, and so inside
the values too; the tail of a value ends with its closing quote and holds no other one, so it is glued
back, while a whole attribute never is. Main statement: `parse_write`. -/

namespace Shorthand.AttributeList

/-- An attribute with its value in single quotes. -/
def quoted (a : Attribute) : Text := a.1 ++ '=' :: '\'' :: (a.2 ++ ['\''])

/-- Attributes with their values in single quotes, a space between each two. -/
def write : List Attribute → Text
  | [] => []
  | [a] => quoted a
  | a :: b :: as => quoted a ++ ' ' :: write (b :: as)

/-- The name holds no blank, equals sign, quote or brace, and the value neither a single quote nor a
brace. -/
structure Quotable (a : Attribute) : Prop where
  name_ne_nil : a.1 ≠ []
  name : ∀ c ∈ a.1, Unicode.isBlank c = false ∧ c ∉ ['=', '\'', '"', '\x7b', '\x7d']
  value : ∀ c ∈ a.2, c ∉ ['\'', '\x7b', '\x7d']

/-- The pieces of a text that is not trimmed. -/
def glued (text : Text) : List Text := (text.splitOn ' ').foldr glueStep []

/-! ## One more character -/

theorem glued_cons {c : Char} (hc : c ≠ ' ') {text g : Text} {gs : List Text}
    (h : glued text = g :: gs) : glued (c :: text) = (c :: g) :: gs := by
  obtain ⟨p, ps, hp⟩ := List.exists_cons_of_ne_nil (List.splitOn_ne_nil ' ' text)
  rw [glued, hp, List.foldr_cons] at h
  rw [glued, Text.splitOn_cons hp, if_neg hc, List.foldr_cons]
  unfold glueStep at h ⊢
  split
  · rename_i next rest hrest
    rw [hrest] at h
    dsimp only at h
    split at h <;> cases h <;> rename_i hn <;> simp [hn]
  · rename_i hrest
    rw [hrest] at h
    cases h
    rfl

theorem glued_space {text g : Text} {gs : List Text} (h : glued text = g :: gs) :
    glued (' ' :: text) = if continuesValue g then (' ' :: g) :: gs else [] :: g :: gs := by
  obtain ⟨p, ps, hp⟩ := List.exists_cons_of_ne_nil (List.splitOn_ne_nil ' ' text)
  rw [glued, hp] at h
  rw [glued, Text.splitOn_cons hp, if_pos rfl, List.foldr_cons, h]
  rfl

/-- A text without spaces goes into the first piece. -/
theorem glued_append {text g : Text} {gs : List Text} (h : glued text = g :: gs) :
    ∀ {u : Text}, ' ' ∉ u → glued (u ++ text) = (u ++ g) :: gs
  | [], _ => h
  | c :: u, hu => by
    obtain ⟨hc, hu⟩ := not_or.1 (mt List.mem_cons.2 hu)
    exact glued_cons (Ne.symm hc) (glued_append h hu)

/-! ## A written list -/

/-- The tail of a quoted value is glued to what stands before it. -/
theorem continuesValue_tail {text : Text} (h : '\'' ∉ text) : continuesValue (text ++ ['\'']) = true := by
  have hcount : (text ++ ['\'']).count '\'' = 1 := by
    rw [List.count_append, List.count_eq_zero.2 h]
    rfl
  simp [continuesValue, hcount]

/-- A quoted value goes into the first piece, whatever spaces it holds. -/
theorem glued_value {rest : Text} {gs : List Text} (h : glued rest = [] :: gs) :
    ∀ {value : Text}, '\'' ∉ value → glued (value ++ '\'' :: rest) = (value ++ ['\'']) :: gs
  | [], _ => glued_cons (by decide) h
  | c :: value, hv => by
    obtain ⟨-, hfree⟩ := not_or.1 (mt List.mem_cons.2 hv)
    have hvalue := glued_value h hfree
    by_cases hc : c = ' '
    · have hspace := glued_space hvalue
      rw [if_pos (continuesValue_tail hfree)] at hspace
      subst hc
      exact hspace
    · exact glued_cons hc hvalue

theorem Quotable.not_mem_name {a : Attribute} (h : Quotable a) {c : Char}
    (hc : c ∈ ['=', '\'', '"', '\x7b', '\x7d']) : c ∉ a.1 := fun hm => (h.name c hm).2 hc

theorem Quotable.not_mem_value {a : Attribute} (h : Quotable a) {c : Char}
    (hc : c ∈ ['\'', '\x7b', '\x7d']) : c ∉ a.2 := fun hm => h.value c hm hc

theorem glued_quoted {a : Attribute} (h : Quotable a) {rest : Text} {gs : List Text}
    (hrest : glued rest = [] :: gs) : glued (quoted a ++ rest) = quoted a :: gs := by
  have hspace : ' ' ∉ a.1 := fun hm => absurd (h.name ' ' hm).1 (by decide)
  have hvalue := glued_value hrest (h.not_mem_value List.mem_cons_self)
  have hquote := glued_cons (c := '=') (by decide) (glued_cons (c := '\'') (by decide) hvalue)
  have hname := glued_append hquote hspace
  simpa [quoted] using hname

theorem getLast?_enclosed (value : Text) : ('\'' :: (value ++ ['\''])).getLast? = some '\'' := by
  rw [← List.cons_append, List.getLast?_concat]

theorem getLast?_quoted (a : Attribute) : (quoted a).getLast? = some '\'' := by
  rw [quoted, List.getLast?_append, List.getLast?_cons, getLast?_enclosed]
  rfl

/-- A whole attribute is not glued to the one before it. -/
theorem not_continuesValue_quoted {a : Attribute} (h : Quotable a) :
    continuesValue (quoted a) = false := by
  have hname : ∀ {c}, c ∈ ['=', '\'', '"', '\x7b', '\x7d'] → a.1.count c = 0 := fun hc =>
    List.count_eq_zero.2 (h.not_mem_name hc)
  have hvalue : ∀ {c}, c ∈ ['\'', '\x7b', '\x7d'] → a.2.count c = 0 := fun hc =>
    List.count_eq_zero.2 (h.not_mem_value hc)
  have hquotes : (quoted a).count '\'' = 2 := by
    simp [quoted, hname, hvalue]
  have hopen : (quoted a).count '\x7b' = 0 := by
    simp [quoted, hname, hvalue]
  have hclose : (quoted a).count '\x7d' = 0 := by
    simp [quoted, hname, hvalue]
  have hequals : '=' ∈ quoted a := List.mem_append_right a.1 List.mem_cons_self
  simp [continuesValue, getLast?_quoted, hquotes, hopen, hclose, hequals]

theorem glued_write : ∀ {as : List Attribute}, as ≠ [] → (∀ a ∈ as, Quotable a) →
    glued (write as) = as.map quoted
  | [], hne, _ => absurd rfl hne
  | [a], _, h => by
    have hnil : glued [] = [] :: [] := rfl
    have hone := glued_quoted (h a List.mem_cons_self) hnil
    rw [List.append_nil] at hone
    exact hone
  | a :: b :: as, _, h => by
    have hrest := glued_write (List.cons_ne_nil b as) fun x hx => h x (List.mem_cons_of_mem a hx)
    have hb := not_continuesValue_quoted (h b (List.mem_cons_of_mem a List.mem_cons_self))
    have hspace := glued_space hrest
    rw [hb] at hspace
    exact glued_quoted (h a List.mem_cons_self) hspace

theorem attribute?_quoted {a : Attribute} (h : Quotable a) : attribute? (quoted a) = some a := by
  have hsplit := Text.splitOnce?_append (h.not_mem_name (c := '=') (by simp))
    ('\'' :: (a.2 ++ ['\'']))
  have hname : a.1.trim = a.1 := Text.trim_eq_self
    (fun c hc => (h.name c (List.mem_of_mem_head? hc)).1)
    fun c hc => (h.name c (List.mem_of_mem_getLast? hc)).1
  have hvalue : Text.trim ('\'' :: (a.2 ++ ['\''])) = '\'' :: (a.2 ++ ['\'']) := by
    refine Text.trim_eq_self (fun c hc => ?_) fun c hc => ?_
    · cases hc; rfl
    · rw [getLast?_enclosed] at hc
      cases hc
      rfl
  rw [attribute?, quoted, hsplit, Option.getD_some]
  simp only [hname, hvalue]
  rw [if_neg (by simpa using h.name_ne_nil), unquote, if_pos ⟨.inl rfl, List.getLast?_concat⟩,
    List.dropLast_concat]

theorem head?_write {a : Attribute} {as : List Attribute} (h : a.1 ≠ []) :
    (write (a :: as)).head? = a.1.head? := by
  obtain ⟨c, name, hname⟩ := List.exists_cons_of_ne_nil h
  cases as <;> rw [write, quoted, hname] <;> rfl

theorem getLast?_write : ∀ {as : List Attribute}, as ≠ [] → (write as).getLast? = some '\''
  | [], hne => absurd rfl hne
  | [a], _ => getLast?_quoted a
  | a :: b :: as, _ => by
    rw [write, List.getLast?_append, List.getLast?_cons, getLast?_write (List.cons_ne_nil b as)]
    rfl

/-- A written list begins with a name and ends with a quote. -/
theorem trim_write {a : Attribute} {as : List Attribute} (h : Quotable a) :
    (write (a :: as)).trim = write (a :: as) := by
  refine Text.trim_eq_self (fun c hc => ?_) fun c hc => ?_
  · rw [head?_write h.name_ne_nil] at hc
    exact (h.name c (List.mem_of_mem_head? hc)).1
  · rw [getLast?_write (List.cons_ne_nil a as)] at hc
    cases hc
    rfl

/-- **Written attributes are read back**, whatever spaces, double quotes and equals signs are in their
values. -/
theorem parse_write {as : List Attribute} (h : ∀ a ∈ as, Quotable a) : parse (write as) = as := by
  cases as with
  | nil => rfl
  | cons a as =>
    rw [parse, pieces, trim_write (h a List.mem_cons_self)]
    change (glued (write (a :: as))).filterMap attribute? = a :: as
    rw [glued_write (List.cons_ne_nil a as) h]
    exact Text.filterMap_map_eq_self fun b hb => attribute?_quoted (h b hb)

end Shorthand.AttributeList
