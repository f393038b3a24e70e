import Shorthand.Proofs.Fragment.Dividing
import Shorthand.Proofs.Token.LetterCase

/-! # Tokens by their offsets

A token is read from a part of a text, and its name is found by offsets into the whole text that are
then counted from where the token begins. They are the offsets of the name in the text of the token. -/

namespace Shorthand.Token
open Fragment (Divides opensWith spans split splitIn?)

theorem ascii_structural : ∀ c ∈ Delimiter.structural, c.toNat < 128 :=
  Text.forall_mem_of_all (by decide)

theorem ascii_modifiers : ∀ c ∈ Delimiter.modifiers, c.toNat < 128 :=
  Text.forall_mem_of_all (by decide)

/-! ## Names -/

section NameFrom
variable {source f : Text} {s : Span} (hslice : s.slice? source = some f) (hne : f ≠ [])
include hslice hne

theorem nameFrom?_modifier {m : Modifier} (hf : (readFragment f).1 = .modifier m) (start : Nat)
    (found : Text × Span) : nameFrom? source start found s = some found := by
  rw [nameFrom?, hslice, Option.bind_eq_bind, Option.bind_some, if_neg hne, hf]
  rfl

theorem nameFrom?_name {value : Text} (hf : (readFragment f).1 = .name value) {start : Nat}
    (hle : start ≤ s.start) (found : Text × Span) : nameFrom? source start found s =
      some (value, ⟨s.start - start, s.start - start + value.byteLength⟩) := by
  have hguard : (guard (start ≤ s.start) : Option Unit) = some () := if_pos hle
  rw [nameFrom?, hslice, Option.bind_eq_bind, Option.bind_some, if_neg hne, hf]
  change (guard (start ≤ s.start) : Option Unit).bind _ = _
  rw [hguard]
  rfl

end NameFrom

/-- A fragment that begins a modifier says no name. -/
theorem nameFrom?_of_opensWith {source f : Text} {s : Span} (hslice : s.slice? source = some f)
    (hopens : opensWith Delimiter.modifiers f = true) (start : Nat) (found : Text × Span) :
    nameFrom? source start found s = some found := by
  obtain ⟨c, rest, rfl⟩ := List.exists_cons_of_ne_nil (Fragment.ne_nil_of_opensWith hopens)
  obtain ⟨m, hm⟩ := readFragment_of_mem (List.contains_iff_mem.1 hopens) rest
  exact nameFrom?_modifier hslice (List.cons_ne_nil c rest) hm start found

theorem foldlM_nameFrom?_of_opensWith {source : Text} {ss : List Span}
    (h : ∀ s ∈ ss, ∃ f, s.slice? source = some f ∧ opensWith Delimiter.modifiers f = true)
    (start : Nat) (found : Text × Span) : ss.foldlM (nameFrom? source start) found = some found := by
  induction ss with
  | nil => rfl
  | cons s ss ih =>
    obtain ⟨⟨f, hslice, hopens⟩, hss⟩ := List.forall_mem_cons.1 h
    rw [List.foldlM_cons, nameFrom?_of_opensWith hslice hopens, Option.bind_eq_bind, Option.bind_some,
      ih hss]

/-- The name stands in front of the fragments, as many bytes behind the start of the token as there are
in its operators. -/
theorem foldlM_nameFrom? (before lead : Text) {fs : List Text}
    (h : Fragment.Separate Delimiter.modifiers fs) (after : Text) :
    (spans (before ++ lead).byteLength fs).foldlM
        (nameFrom? ((before ++ lead) ++ fs.flatten ++ after) before.byteLength)
        ([], ⟨lead.byteLength, lead.byteLength⟩) =
      some (nameOf fs, ⟨lead.byteLength, lead.byteLength + (nameOf fs).byteLength⟩) := by
  cases fs with
  | nil => rfl
  | cons f fs =>
    have hsource : (before ++ lead) ++ (f :: fs).flatten ++ after =
        (before ++ lead) ++ f ++ (fs.flatten ++ after) := by
      simp only [List.flatten_cons, List.append_assoc]
    have hslice := Span.slice?_append (before ++ lead) f (fs.flatten ++ after)
    rw [← hsource] at hslice
    have hfirst : nameFrom? ((before ++ lead) ++ (f :: fs).flatten ++ after) before.byteLength
        ([], ⟨lead.byteLength, lead.byteLength⟩)
        ⟨(before ++ lead).byteLength, (before ++ lead).byteLength + f.byteLength⟩ =
        some (nameOf (f :: fs),
          ⟨lead.byteLength, lead.byteLength + (nameOf (f :: fs)).byteLength⟩) := by
      cases hf : (readFragment f).1 with
      | modifier m =>
        have hname : nameOf (f :: fs) = [] := by rw [nameOf, hf]
        rw [nameFrom?_modifier hslice h.1 hf, hname]
        rfl
      | name value =>
        have hname : nameOf (f :: fs) = value := by rw [nameOf, hf]
        have hle : before.byteLength ≤ (before ++ lead).byteLength :=
          Text.byteLength_append before lead ▸ Nat.le_add_right ..
        rw [nameFrom?_name hslice h.1 hf hle, hname, Text.byteLength_append, Nat.add_sub_cancel_left]
    rw [spans, List.foldlM_cons, hfirst, Option.bind_eq_bind, Option.bind_some]
    refine foldlM_nameFrom?_of_opensWith (fun s hs => ?_) _ _
    rw [← Text.byteLength_append] at hs
    obtain ⟨g, hg, hgslice, -⟩ := Fragment.exists_of_mem_spans hs after
    rw [List.append_assoc (before ++ lead)] at hgslice
    exact ⟨g, hgslice, h.2 g hg⟩

theorem span_parse (start : Nat) (raw : Text) :
    (parse start raw).span = ⟨start, start + raw.byteLength⟩ := rfl

theorem nameIn?_parse (before raw after : Text) :
    nameIn? (before ++ raw ++ after) (parse before.byteLength raw).span =
      some ((parse before.byteLength raw).name, (parse before.byteLength raw).nameRange) := by
  let lead := raw.takeWhile Delimiter.structural.contains
  let body := raw.dropWhile Delimiter.structural.contains
  have hraw : lead ++ body = raw := List.takeWhile_append_dropWhile
  have hsource : before ++ raw ++ after = (before ++ lead) ++ body ++ after := by
    rw [← hraw, ← List.append_assoc before lead]
  have hstop : before.byteLength + raw.byteLength = (before ++ lead).byteLength + Text.byteLength body := by
    rw [← hraw, Text.byteLength_append, Text.byteLength_append, Nat.add_assoc]
  have hsplit := Fragment.splitIn?_eq_spans ascii_modifiers (before ++ lead) body after
  have hname := foldlM_nameFrom? before lead (Fragment.separate_split Delimiter.modifiers body) after
  rw [← hstop, ← hsource, Text.byteLength_append] at hsplit
  rw [Fragment.flatten_split, ← hsource, Text.byteLength_append] at hname
  rw [nameIn?, span_parse, Span.slice?_append]
  simp only [Option.bind_eq_bind, Option.bind_some]
  rw [hsplit]
  exact hname

/-- The name of a token stands behind its operators. -/
theorem slice?_nameRange (t : Token) : t.nameRange.slice? t.raw = some t.name :=
  Span.slice?_append t.lead t.name t.trail

theorem stop_nameRange_le (t : Token) : t.nameRange.stop ≤ t.raw.byteLength := by
  rw [raw, Text.byteLength_append, Text.byteLength_append]
  exact Nat.le_add_right _ _

/-! ## Operators -/

theorem ofRun_eq_start_iff {run : Text} :
    Operator.ofRun run = .start ↔ ∀ c ∈ Delimiter.structural, c ∉ run := by
  simp only [Operator.ofRun, Delimiter.structural, List.forall_mem_cons, List.count_pos_iff,
    List.contains_iff_mem]
  split
  · simp_all
  · split
    · simp_all
    · split <;> simp_all

theorem operator_parse_ne_start {f : Text} (h : opensWith Delimiter.structural f = true) (start : Nat) :
    (parse start f).operator ≠ .start := by
  obtain ⟨c, rest, rfl⟩ := List.exists_cons_of_ne_nil (Fragment.ne_nil_of_opensWith h)
  have hlead : (parse start (c :: rest)).operator =
      .ofRun (c :: rest.takeWhile Delimiter.structural.contains) :=
    congrArg Operator.ofRun (List.takeWhile_cons_of_pos h)
  rw [hlead]
  exact fun he => ofRun_eq_start_iff.1 he c (List.contains_iff_mem.1 h) List.mem_cons_self

/-! ## All tokens -/

/-- Every token is read from the part of the text that its span slices. -/
theorem exists_of_mem_parseAll {before : Text} {fs : List Text} {t : Token}
    (h : t ∈ parseAll before.byteLength fs) (after : Text) :
    ∃ u v, ∃ f ∈ fs, before ++ fs.flatten ++ after = u ++ f ++ v ∧ t = parse u.byteLength f := by
  induction fs generalizing before with
  | nil => cases h
  | cons g fs ih =>
    rcases List.mem_cons.1 h with rfl | h
    · refine ⟨before, fs.flatten ++ after, g, List.mem_cons_self, ?_, rfl⟩
      simp only [List.flatten_cons, List.append_assoc]
    · rw [← Text.byteLength_append] at h
      obtain ⟨u, v, f, hf, he, rfl⟩ := ih h
      refine ⟨u, v, f, List.mem_cons_of_mem g hf, ?_, rfl⟩
      rw [← he]
      simp only [List.flatten_cons, List.append_assoc]

theorem operator_ne_start_of_mem_tail {source : Text} {t : Token} (h : t ∈ (tokenize source).tail) :
    t.operator ≠ .start := by
  have hopens := (Fragment.separate_split Delimiter.structural source).of_mem_tail
  rw [tokenize] at h
  cases hfs : split Delimiter.structural source with
  | nil =>
    rw [hfs] at h
    cases h
  | cons f fs =>
    rw [hfs] at h hopens
    rw [parseAll, List.tail_cons, Nat.zero_add] at h
    obtain ⟨u, v, g, hg, -, rfl⟩ := exists_of_mem_parseAll h []
    exact operator_parse_ne_start (hopens g hg) u.byteLength

theorem slices_of_mem_tokenize {source : Text} {t : Token} (h : t ∈ tokenize source) :
    t.span.slice? source = some t.raw ∧ nameIn? source t.span = some (t.name, t.nameRange) := by
  obtain ⟨u, v, f, -, he, rfl⟩ := @exists_of_mem_parseAll [] _ _ h []
  rw [List.append_nil, List.nil_append, Fragment.flatten_split] at he
  subst he
  refine ⟨?_, nameIn?_parse u f v⟩
  rw [raw_parse]
  exact Span.slice?_append u f v

/-- **Splitting divides the span it is given, and never fails.** Nothing is left of an empty span. For any
other one, both loops find every span they index and every slice they take, and the spans that are left are
those of the fragments and divide it. So the tokens of a text put together are the text, each but the first
has an operator, and the name of each stands in its text where it was found by offsets into the whole. -/
theorem splitting_divides (source : Text) :
    (∀ (operators : List Char) (whole : Span), whole.isEmpty = true →
      splitIn? operators source whole = some []) ∧
    (∀ (operators : List Char) (whole : Span) (text : Text), (∀ c ∈ operators, c.toNat < 128) →
      whole.slice? source = some text → whole.isEmpty = false →
        splitIn? operators source whole = some (spans whole.start (split operators text)) ∧
        Divides operators source whole (spans whole.start (split operators text))) ∧
    splitIn? Delimiter.structural source (Span.of source) = some ((tokenize source).map span) ∧
    ((tokenize source).map raw).flatten = source ∧
    (∀ t ∈ (tokenize source).tail, t.operator ≠ .start) ∧
    ∀ t ∈ tokenize source,
      t.span.slice? source = some t.raw ∧
      nameIn? source t.span = some (t.name, t.nameRange) ∧
      t.nameRange.stop ≤ t.raw.byteLength ∧
      t.nameRange.slice? t.raw = some t.name := by
  refine ⟨fun _ _ hempty => if_pos hempty,
    fun _ _ _ hascii hslice hne => Fragment.divides_split hascii hslice hne, ?_,
    flatten_map_raw_tokenize source, fun _ => operator_ne_start_of_mem_tail, fun t ht => ?_⟩
  · have hsplit := Fragment.splitIn?_eq_spans ascii_structural [] source []
    rw [List.append_nil, List.nil_append, Text.byteLength_nil, Nat.zero_add] at hsplit
    rw [tokenize, map_span_parseAll]
    exact hsplit
  · obtain ⟨hslice, hname⟩ := slices_of_mem_tokenize ht
    exact ⟨hslice, hname, stop_nameRange_le t, slice?_nameRange t⟩

/-- Groups that cross, one that is never opened and one that is never closed, among characters of more than
one byte. -/
def illNested : Text := "]é[>\x7bx]+y\x7d^+ü*2\x7b".toList

theorem splitting_divides_illNested :
    (∀ c ∈ Delimiter.structural, c.toNat < 128) ∧
    (Span.of illNested).slice? illNested = some illNested ∧
    (Span.of illNested).isEmpty = false ∧
    splitIn? Delimiter.structural illNested (Span.of illNested) = some [⟨0, 11⟩, ⟨11, 18⟩] ∧
    Divides Delimiter.structural illNested (Span.of illNested) [⟨0, 11⟩, ⟨11, 18⟩] ∧
    (Span.mk 3 3).isEmpty = true ∧ splitIn? Delimiter.structural illNested ⟨3, 3⟩ = some [] := by
  have hslice := Span.slice?_of illNested
  have hspans : spans (Span.of illNested).start (split Delimiter.structural illNested) =
      [⟨0, 11⟩, ⟨11, 18⟩] := by decide
  obtain ⟨hsplit, hdivides⟩ := (splitting_divides illNested).2.1 Delimiter.structural _ _
    ascii_structural hslice (by decide)
  rw [hspans] at hsplit hdivides
  exact ⟨ascii_structural, hslice, by decide, hsplit, hdivides, by decide,
    (splitting_divides illNested).1 _ _ (by decide)⟩

end Shorthand.Token
