import Shorthand.Proofs.Fragment.Offsets

/-! # What fragments divide

The fragments of a text divide it: put together they are the text, none is empty, and each but the first
begins with an operator, since gluing only ever puts a fragment in front of others. Where the text is a
part of a larger one, the spans of its fragments divide the span of this part. -/

namespace Shorthand.Fragment

/-- Every fragment but the first begins with an operator, and that one is not empty. -/
def Separate (operators : List Char) : List Text → Prop
  | [] => True
  | f :: fs => f ≠ [] ∧ ∀ g ∈ fs, opensWith operators g = true

section Separate
variable {operators : List Char}

theorem ne_nil_of_opensWith {f : Text} (h : opensWith operators f = true) : f ≠ [] := by
  rintro rfl
  cases h

theorem opensWith_append {f : Text} (h : opensWith operators f = true) (g : Text) :
    opensWith operators (f ++ g) = true := by
  obtain ⟨c, f, rfl⟩ := List.exists_cons_of_ne_nil (ne_nil_of_opensWith h)
  exact h

theorem Separate.nil_not_mem {fs : List Text} (h : Separate operators fs) : [] ∉ fs := by
  cases fs with
  | nil => exact List.not_mem_nil
  | cons f fs =>
    intro hnil
    rcases List.mem_cons.1 hnil with rfl | hnil
    · exact h.1 rfl
    · exact ne_nil_of_opensWith (h.2 [] hnil) rfl

theorem Separate.of_mem_tail {fs : List Text} (h : Separate operators fs) :
    ∀ f ∈ fs.tail, opensWith operators f = true := by
  cases fs with
  | nil => exact nofun
  | cons f fs => exact h.2

theorem separate_cut (text : Text) : Separate operators (cut operators text) := by
  induction text with
  | nil => exact trivial
  | cons c text ih =>
    have hcut : cut operators (c :: text) = cutStep operators c (cut operators text) := rfl
    rw [hcut]
    cases hfs : cut operators text with
    | nil => exact ⟨List.cons_ne_nil c [], nofun⟩
    | cons f fs =>
      rw [hfs] at ih
      rw [cutStep]
      split
      · rename_i hf
        exact ⟨List.cons_ne_nil c [], List.forall_mem_cons.2 ⟨hf, ih.2⟩⟩
      · exact ⟨List.cons_ne_nil c f, ih.2⟩

variable {step : Text → List Text → List Text} (hfront : PutsInFront step)
include hfront

theorem PutsInFront.opensWith_of_mem_foldr {fs : List Text}
    (h : ∀ f ∈ fs, opensWith operators f = true) :
    ∀ f ∈ fs.foldr step [], opensWith operators f = true := by
  induction fs with
  | nil => exact nofun
  | cons f fs ih =>
    obtain ⟨hf, hfs⟩ := List.forall_mem_cons.1 h
    have ih := ih hfs
    rw [List.foldr_cons]
    rcases hfront f (fs.foldr step []) with he | ⟨next, rest, hrest, he⟩
    · rw [he]
      exact List.forall_mem_cons.2 ⟨hf, ih⟩
    · rw [hrest] at ih
      rw [he]
      exact List.forall_mem_cons.2 ⟨opensWith_append hf next, (List.forall_mem_cons.1 ih).2⟩

/-- Gluing fragments keeps them separate. -/
theorem PutsInFront.separate_foldr {fs : List Text} (h : Separate operators fs) :
    Separate operators (fs.foldr step []) := by
  cases fs with
  | nil => exact trivial
  | cons f fs =>
    have hmore := hfront.opensWith_of_mem_foldr h.2
    rw [List.foldr_cons]
    rcases hfront f (fs.foldr step []) with he | ⟨next, rest, hrest, he⟩
    · rw [he]
      exact ⟨h.1, hmore⟩
    · rw [hrest] at hmore
      rw [he]
      exact ⟨fun hnil => h.1 (List.append_eq_nil_iff.1 hnil).1, (List.forall_mem_cons.1 hmore).2⟩

end Separate

theorem separate_split (operators : List Char) (text : Text) :
    Separate operators (split operators text) :=
  putsInFront_climbStep.separate_foldr (putsInFront_glueStep.separate_foldr (separate_cut text))

/-- The spans divide the span of a text: in order and without a gap they reach from its start to its
stop, none is empty, each lies between two characters, and each but the first begins with an operator. -/
structure Divides (operators : List Char) (source : Text) (whole : Span) (parts : List Span) : Prop where
  start_eq : parts.head?.map Span.start = some whole.start
  stop_eq : parts.getLast?.map Span.stop = some whole.stop
  adjacent : parts.IsChain fun s t => s.stop = t.start
  filled : ∀ s ∈ parts, s.start < s.stop
  slices : ∀ s ∈ parts, ∃ text, s.slice? source = some text
  opens : ∀ s ∈ parts.tail, ∃ text, s.slice? source = some text ∧ opensWith operators text = true

/-- The span of one of the fragments slices it off the text. -/
theorem exists_of_mem_spans {before : Text} {fs : List Text} {s : Span}
    (h : s ∈ spans before.byteLength fs) (after : Text) :
    ∃ f ∈ fs, s.slice? (before ++ fs.flatten ++ after) = some f ∧ s.stop = s.start + f.byteLength := by
  induction fs generalizing before with
  | nil => cases h
  | cons g fs ih =>
    rcases List.mem_cons.1 h with rfl | h
    · refine ⟨g, List.mem_cons_self, ?_, rfl⟩
      rw [List.flatten_cons, ← List.append_assoc, List.append_assoc _ fs.flatten]
      exact Span.slice?_append before g (fs.flatten ++ after)
    · rw [← Text.byteLength_append] at h
      obtain ⟨f, hf, hslice, hstop⟩ := ih h
      rw [List.append_assoc before] at hslice
      exact ⟨f, List.mem_cons_of_mem g hf, hslice, hstop⟩

theorem isChain_spans (start : Nat) (fs : List Text) :
    (spans start fs).IsChain fun s t => s.stop = t.start := by
  induction fs generalizing start with
  | nil => exact .nil
  | cons f fs ih =>
    cases fs with
    | nil => exact .singleton _
    | cons g fs => exact .cons_cons rfl (ih _)

theorem getLast?_spans (start : Nat) {fs : List Text} (h : fs ≠ []) :
    (spans start fs).getLast?.map Span.stop = some (start + Text.byteLength fs.flatten) := by
  induction fs generalizing start with
  | nil => exact absurd rfl h
  | cons f fs ih =>
    cases fs with
    | nil => simp [spans]
    | cons g fs =>
      rw [spans, List.flatten_cons, Text.byteLength_append, ← Nat.add_assoc,
        ← ih (start + f.byteLength) (List.cons_ne_nil g fs)]
      rfl

theorem divides_spans {operators : List Char} (before after : Text) {fs : List Text} (hne : fs ≠ [])
    (h : Separate operators fs) :
    Divides operators (before ++ fs.flatten ++ after)
      ⟨before.byteLength, before.byteLength + Text.byteLength fs.flatten⟩
      (spans before.byteLength fs) where
  start_eq := by
    obtain ⟨f, fs, rfl⟩ := List.exists_cons_of_ne_nil hne
    rfl
  stop_eq := getLast?_spans before.byteLength hne
  adjacent := isChain_spans before.byteLength fs
  filled s hs := by
    obtain ⟨f, hf, -, hstop⟩ := exists_of_mem_spans hs after
    have hpos := List.length_pos_iff.2 fun he : f = [] => h.nil_not_mem (he ▸ hf)
    have hle := Text.length_le_byteLength f
    omega
  slices s hs := by
    obtain ⟨f, -, hslice, -⟩ := exists_of_mem_spans hs after
    exact ⟨f, hslice⟩
  opens s hs := by
    obtain ⟨g, fs, rfl⟩ := List.exists_cons_of_ne_nil hne
    rw [spans, List.tail_cons, ← Text.byteLength_append] at hs
    obtain ⟨f, hf, hslice, -⟩ := exists_of_mem_spans hs after
    rw [List.append_assoc before] at hslice
    exact ⟨f, hslice, h.2 f hf⟩

/-- **The fragments of a span that is not empty divide it**, and they are found by offsets. -/
theorem divides_split {operators : List Char} (hascii : ∀ c ∈ operators, c.toNat < 128)
    {source text : Text} {whole : Span} (h : whole.slice? source = some text)
    (hne : whole.isEmpty = false) :
    splitIn? operators source whole = some (spans whole.start (split operators text)) ∧
    Divides operators source whole (spans whole.start (split operators text)) := by
  obtain ⟨before, after, rfl, rfl⟩ := Span.slice?_eq_some_iff.1 h
  refine ⟨splitIn?_eq_spans hascii before text after, ?_⟩
  have hflat := flatten_split operators text
  have hsplit : split operators text ≠ [] := by
    intro hnil
    rw [hnil] at hflat
    subst hflat
    simp [Span.isEmpty, Span.length] at hne
  have hdivides := divides_spans before after hsplit (separate_split operators text)
  rwa [hflat] at hdivides

end Shorthand.Fragment
