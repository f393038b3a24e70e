import Mathlib.Data.List.Induction
import Shorthand.Token.Offsets
import Shorthand.Proofs.Fragment.Sealed
import Shorthand.Proofs.Text.Utf8

/-! # Fragments by their offsets

Splitting scans bytes and glues spans in place, and nothing it does on the way can fail: both loops find
the spans they index, and every span they slice lies between two characters. The spans that are left are
those of the fragments (`splitIn?_eq_spans`). -/

namespace Shorthand

/-! ## Slices -/

namespace Text

theorem append_of_splitAtByte? : ∀ {offset : Nat} {text before after : Text},
    splitAtByte? offset text = some (before, after) →
      text = before ++ after ∧ offset = before.byteLength
  | 0, _, _, _, h => by
    rw [splitAtByte?] at h
    cases h
    exact ⟨rfl, rfl⟩
  | _ + 1, [], _, _, h => by cases h
  | offset + 1, c :: text, _, _, h => by
    rw [splitAtByte?] at h
    split at h
    · obtain ⟨⟨before, after⟩, hrest, he⟩ := Option.map_eq_some_iff.1 h
      cases he
      obtain ⟨rfl, hlength⟩ := append_of_splitAtByte? hrest
      refine ⟨rfl, ?_⟩
      rw [byteLength_cons]
      omega
    · cases h

end Text

namespace Span

/-- A span slices a text where two characters meet at either end. -/
theorem slice?_eq_some_iff {s : Span} {source text : Text} : s.slice? source = some text ↔
    ∃ before after, source = before ++ text ++ after ∧
      s = ⟨before.byteLength, before.byteLength + text.byteLength⟩ := by
  constructor
  · intro h
    obtain ⟨start, stop⟩ := s
    obtain ⟨⟨⟩, hle, h⟩ := Option.bind_eq_some_iff.1 h
    obtain ⟨⟨before, rest⟩, hbefore, h⟩ := Option.bind_eq_some_iff.1 h
    obtain ⟨⟨inside, after⟩, hinside, h⟩ := Option.bind_eq_some_iff.1 h
    cases h
    obtain ⟨rfl, hstart⟩ := Text.append_of_splitAtByte? hbefore
    obtain ⟨rfl, hlength⟩ := Text.append_of_splitAtByte? hinside
    have hle : start ≤ stop := by
      by_cases hle' : start ≤ stop
      · exact hle'
      · rw [guard, if_neg hle'] at hle
        cases hle
    simp only [length] at hstart hlength
    refine ⟨before, after, (List.append_assoc ..).symm, ?_⟩
    rw [← hstart, ← hlength, Nat.add_sub_cancel' hle]
  · rintro ⟨before, after, rfl, rfl⟩
    have hle : (guard (before.byteLength ≤ before.byteLength + text.byteLength) : Option Unit) =
        some () := if_pos (Nat.le_add_right ..)
    rw [slice?, hle]
    simp only [length, Nat.add_sub_cancel_left, List.append_assoc, Text.splitAtByte?_append,
      Option.bind_eq_bind, Option.bind_some, Option.pure_def]

theorem slice?_append (before text after : Text) :
    (Span.mk before.byteLength (before.byteLength + text.byteLength)).slice?
      (before ++ text ++ after) = some text :=
  slice?_eq_some_iff.2 ⟨before, after, rfl, rfl⟩

end Span

namespace Fragment

/-! ## The scan -/

theorem scan_append_of_not_contains {operators bs : List UInt8}
    (h : ∀ b ∈ bs, operators.contains b = false) (start position : Nat) (bytes : List UInt8) :
    scan operators start position (bs ++ bytes) = scan operators start (position + bs.length) bytes := by
  induction bs generalizing position with
  | nil => rfl
  | cons b bs ih =>
    rw [List.cons_append, scan, h b List.mem_cons_self, if_neg Bool.false_ne_true,
      ih fun b' hb' => h b' (List.mem_cons_of_mem b hb'), List.length_cons, Nat.add_assoc,
      Nat.add_comm 1]

/-- Puts the fragment that is being read in front of those after it. -/
def attach (operators : List Char) (u : Text) : List Text → List Text
  | f :: fs => if opensWith operators f then u :: f :: fs else (u ++ f) :: fs
  | [] => [u]

theorem attach_singleton (operators : List Char) (c : Char) (fs : List Text) :
    attach operators [c] fs = cutStep operators c fs := by
  cases fs <;> rfl

theorem attach_cutStep (operators : List Char) (u : Text) (c : Char) (fs : List Text) :
    attach operators u (cutStep operators c fs) =
      if operators.contains c then u :: cutStep operators c fs
      else attach operators (u ++ [c]) fs := by
  have hjoin : ∀ f fs, attach operators u ((c :: f) :: fs) =
      if operators.contains c then u :: (c :: f) :: fs else (u ++ c :: f) :: fs := fun _ _ => rfl
  cases fs with
  | nil => exact hjoin [] []
  | cons f fs =>
    cases hf : opensWith operators f with
    | true => rw [cutStep, if_pos hf, hjoin, attach, if_pos hf]
    | false =>
      have hf := Bool.eq_false_iff.1 hf
      rw [cutStep, if_neg hf, hjoin, attach, if_neg hf, List.append_assoc, List.singleton_append]

section Scan
variable {operators : List Char} (hascii : ∀ c ∈ operators, c.toNat < 128)
include hascii

/-- An operator is seen by the scan at its only byte, and any other character at none. -/
theorem contains_bytes_of_mem_encode {c : Char} {b : UInt8} (hb : b ∈ String.utf8EncodeChar c) :
    (Text.bytes operators).contains b = operators.contains c := by
  rw [Bool.eq_iff_iff, List.contains_iff_mem, List.contains_iff_mem]
  constructor
  · intro h
    obtain ⟨d, hd, hbd⟩ := List.mem_flatMap.1 h
    rw [Text.encode_ascii (hascii d hd), List.mem_singleton] at hbd
    exact Text.eq_of_mem_encode (hascii d hd) (hbd ▸ hb) ▸ hd
  · exact fun h => List.mem_flatMap.2 ⟨c, h, hb⟩

/-- While the scan reads the fragment `u`, the spans to come are those of `u` and what is cut off the
rest. -/
theorem scan_bytes (text : Text) : ∀ (start : Nat) (u : Text),
    scan (Text.bytes operators) start (start + u.byteLength) (Text.bytes text) =
      spans start (attach operators u (cut operators text)) := by
  induction text with
  | nil => exact fun _ _ => rfl
  | cons c text ih =>
    intro start u
    have hcut : cut operators (c :: text) = cutStep operators c (cut operators text) := rfl
    have hmore : start + (u ++ [c]).byteLength = start + u.byteLength + c.utf8Size := by
      simp [Nat.add_assoc]
    rw [Text.bytes_cons, hcut, attach_cutStep]
    cases hc : operators.contains c with
    | true =>
      have hbytes := Text.encode_ascii (hascii c (List.contains_iff_mem.1 hc))
      have hsize := Text.utf8Size_ascii (hascii c (List.contains_iff_mem.1 hc))
      have hbyte := contains_bytes_of_mem_encode hascii (hbytes ▸ List.mem_singleton_self _)
      have hnext := ih (start + u.byteLength) [c]
      rw [Text.byteLength_cons, Text.byteLength_nil, hsize] at hnext
      rw [hbytes, List.singleton_append, scan, hbyte, hc, if_pos rfl, if_pos rfl, spans, hnext]
      rfl
    | false =>
      rw [scan_append_of_not_contains fun b hb => (contains_bytes_of_mem_encode hascii hb).trans hc,
        String.length_utf8EncodeChar, ← hmore, ih, if_neg Bool.false_ne_true]

/-- The first byte is passed over, and the others of the first character are no operators. -/
theorem cutIn_bytes (start : Nat) {text : Text} (hne : text ≠ []) :
    cutIn (Text.bytes operators) start (Text.bytes text) = spans start (cut operators text) := by
  obtain ⟨c, text, rfl⟩ := List.exists_cons_of_ne_nil hne
  have hcut : cut operators (c :: text) = attach operators [c] (cut operators text) :=
    (attach_singleton operators c _).symm
  have hscan := scan_bytes hascii text start [c]
  rw [Text.byteLength_cons, Text.byteLength_nil, ← String.length_utf8EncodeChar] at hscan
  obtain ⟨b, bs, hbytes⟩ := List.exists_cons_of_ne_nil (String.utf8EncodeChar_ne_nil (c := c))
  have hbs : ∀ b' ∈ bs, (Text.bytes operators).contains b' = false := by
    intro b' hb'
    by_cases hc : c.toNat < 128
    · rw [Text.encode_ascii hc] at hbytes
      cases hbytes
      cases hb'
    · rw [contains_bytes_of_mem_encode hascii (hbytes ▸ List.mem_cons_of_mem b hb'),
        ← Bool.not_eq_true, List.contains_iff_mem]
      exact fun h => hc (hascii c h)
  rw [Text.bytes_cons, hcut, ← hscan, hbytes, List.cons_append, cutIn,
    scan_append_of_not_contains hbs, List.length_cons, Nat.add_zero, Nat.add_assoc, Nat.add_comm 1]

end Scan

/-! ## The loops -/

theorem spans_append (start : Nat) (us vs : List Text) : spans start (us ++ vs) =
    spans start us ++ spans (start + Text.byteLength us.flatten) vs := by
  induction us generalizing start with
  | nil => rfl
  | cons u us ih =>
    rw [List.cons_append, spans, ih, spans, List.flatten_cons, Text.byteLength_append, Nat.add_assoc,
      List.cons_append]

@[simp] theorem length_spans (start : Nat) (fs : List Text) : (spans start fs).length = fs.length := by
  induction fs generalizing start with
  | nil => rfl
  | cons f fs ih => rw [spans, List.length_cons, List.length_cons, ih]

/-- The span of a fragment among others, found by the number of those before it. -/
theorem getElem?_spans (start : Nat) (us : List Text) (f : Text) (fs : List Text) :
    (spans start (us ++ f :: fs))[us.length]? =
      some ⟨start + Text.byteLength us.flatten,
        start + Text.byteLength us.flatten + f.byteLength⟩ := by
  rw [spans_append, List.getElem?_append_right (Nat.le_of_eq (length_spans start us)), length_spans,
    Nat.sub_self]
  rfl

theorem joinNext?_append (before : List Span) (s next : Span) (after : List Span) :
    joinNext? (before ++ s :: next :: after) before.length =
      some (before ++ s.join next :: after) := by
  have hnext : (before ++ s :: next :: after)[before.length + 1]? = some next := by
    rw [List.getElem?_append_right (Nat.le_add_right _ 1), Nat.add_sub_cancel_left]
    rfl
  have herase : (before ++ s :: next :: after).eraseIdx (before.length + 1) = before ++ s :: after := by
    rw [List.eraseIdx_append_of_length_le (Nat.le_add_right _ 1), Nat.add_sub_cancel_left]
    rfl
  have hpart : (before ++ s :: after)[before.length]? = some s := by
    rw [List.getElem?_append_right (Nat.le_refl _), Nat.sub_self]
    rfl
  have hset : (before ++ s :: after).set before.length (s.join next) =
      before ++ s.join next :: after := by
    rw [List.set_append_right _ _ (Nat.le_refl _), Nat.sub_self]
    rfl
  simp only [joinNext?, hnext, herase, hpart, hset, Option.bind_eq_bind, Option.bind_some,
    Option.pure_def]

/-- Joining two spans is gluing their fragments. -/
theorem joinNext?_spans (start : Nat) (us : List Text) (f g : Text) (fs : List Text) :
    joinNext? (spans start (us ++ f :: g :: fs)) us.length =
      some (spans start (us ++ (f ++ g) :: fs)) := by
  have hjoin := joinNext?_append (spans start us)
  rw [length_spans] at hjoin
  rw [spans_append, spans_append, spans, spans, hjoin, spans]
  simp only [Span.join, Text.byteLength_append, Nat.add_assoc]

/-- Puts a fragment in front of others, by itself or glued to the first of them. -/
def PutsInFront (step : Text → List Text → List Text) : Prop :=
  ∀ f fs, step f fs = f :: fs ∨ ∃ next rest, fs = next :: rest ∧ step f fs = (f ++ next) :: rest

theorem putsInFront_glueStep : PutsInFront glueStep := by
  intro f fs
  cases fs with
  | nil => exact .inl rfl
  | cons next rest =>
    rw [glueStep]
    split
    · exact .inr ⟨next, rest, rfl, rfl⟩
    · exact .inl rfl

theorem putsInFront_climbStep : PutsInFront climbStep := by
  intro f fs
  cases fs with
  | nil => exact .inl rfl
  | cons next rest =>
    rw [climbStep]
    split
    · exact .inr ⟨next, rest, rfl, rfl⟩
    · exact .inl rfl

/-- At each index, `step?` does to the spans of fragments that stand between `before` and `after` in the
text what `step` does to the fragments from there on. -/
def FollowsAt (source before after : Text) (step? : List Span → Nat → Option (List Span))
    (step : Text → List Text → List Text) : Prop :=
  ∀ us f g fs, source = before ++ (us ++ f :: g :: fs).flatten ++ after →
    step? (spans before.byteLength (us ++ f :: g :: fs)) us.length =
      some (spans before.byteLength (us ++ step f (g :: fs)))

section Loops
variable {source before after : Text}

/-- The span at an index is found and slices its fragment off the text. -/
theorem getElem?_spans_slice? (us : List Text) (f : Text) (fs : List Text)
    (h : source = before ++ (us ++ f :: fs).flatten ++ after) :
    (spans before.byteLength (us ++ f :: fs))[us.length]?.bind (·.slice? source) = some f := by
  have hslice := Span.slice?_append (before ++ us.flatten) f (fs.flatten ++ after)
  rw [Text.byteLength_append] at hslice
  rw [getElem?_spans, Option.bind_some, ← hslice, h]
  congr 1
  simp only [List.flatten_append, List.flatten_cons, List.append_assoc]

theorem followsAt_glueAt? : FollowsAt source before after (glueAt? source) glueStep := by
  intro us f g fs h
  have hnext : (spans before.byteLength (us ++ f :: g :: fs))[us.length + 1]?.bind (·.slice? source) =
      some g := by
    have hg := getElem?_spans_slice? (us ++ [f]) g fs
      (h.trans (by rw [List.append_assoc us [f]]; rfl))
    rwa [List.append_assoc, List.length_append] at hg
  obtain ⟨s, hs, hslice⟩ := Option.bind_eq_some_iff.1 hnext
  simp only [glueAt?, hs, hslice, Option.bind_eq_bind, Option.bind_some, glueStep]
  split
  · exact joinNext?_spans before.byteLength us f g fs
  · rfl

theorem followsAt_climbAt? : FollowsAt source before after (climbAt? source) climbStep := by
  intro us f g fs h
  obtain ⟨s, hs, hslice⟩ := Option.bind_eq_some_iff.1 (getElem?_spans_slice? us f (g :: fs) h)
  simp only [climbAt?, hs, hslice, Option.bind_eq_bind, Option.bind_some, climbStep]
  split
  · exact joinNext?_spans before.byteLength us f g fs
  · rfl

/-- A step that puts a fragment in front leaves the text as it is. -/
theorem PutsInFront.flatten_eq {step : Text → List Text → List Text} (h : PutsInFront step) (f : Text)
    (fs : List Text) : (step f fs).flatten = f ++ fs.flatten := by
  rcases h f fs with he | ⟨next, rest, rfl, he⟩
  · rw [he, List.flatten_cons]
  · rw [he, List.flatten_cons, List.flatten_cons, List.append_assoc]

theorem PutsInFront.ne_nil {step : Text → List Text → List Text} (h : PutsInFront step) (f : Text)
    (fs : List Text) : step f fs ≠ [] := by
  rcases h f fs with he | ⟨next, rest, -, he⟩ <;> rw [he] <;> exact List.cons_ne_nil _ _

/-- The loop runs down over fragments that are followed by others, and no index in it is out of range. -/
theorem runDown?_spans_append {step? : List Span → Nat → Option (List Span)}
    {step : Text → List Text → List Text} (hstep : FollowsAt source before after step? step)
    (hfront : PutsInFront step) (us : List Text) :
    ∀ {fs : List Text}, fs ≠ [] → source = before ++ (us ++ fs).flatten ++ after →
      runDown? step? us.length (spans before.byteLength (us ++ fs)) =
        some (spans before.byteLength (us.foldr step fs)) := by
  induction us using List.reverseRec with
  | nil => exact fun _ _ => rfl
  | append_singleton us f ih =>
    intro fs hne h
    obtain ⟨g, gs, rfl⟩ := List.exists_cons_of_ne_nil hne
    have hs : source = before ++ (us ++ f :: g :: gs).flatten ++ after := by
      rw [h, List.append_assoc us [f]]
      rfl
    have hmore : source = before ++ (us ++ step f (g :: gs)).flatten ++ after := by
      rw [hs, List.flatten_append, List.flatten_append, hfront.flatten_eq, List.flatten_cons]
    rw [List.append_assoc, List.singleton_append, List.length_append, List.length_singleton, runDown?,
      hstep us f g gs hs, Option.bind_eq_bind, Option.bind_some, ih (hfront.ne_nil f (g :: gs)) hmore,
      List.foldr_append]
    rfl

theorem runDown?_spans {step? : List Span → Nat → Option (List Span)}
    {step : Text → List Text → List Text} (hstep : FollowsAt source before after step? step)
    (hfront : PutsInFront step) {fs : List Text} (hne : fs ≠ [])
    (h : source = before ++ fs.flatten ++ after) :
    runDown? step? (fs.length - 1) (spans before.byteLength fs) =
      some (spans before.byteLength (fs.foldr step [])) := by
  have halone : step (fs.getLast hne) [] = [fs.getLast hne] := by
    rcases hfront (fs.getLast hne) [] with he | ⟨next, rest, hnil, -⟩
    · exact he
    · cases hnil
  have hfs := List.dropLast_concat_getLast hne
  have hrun := runDown?_spans_append hstep hfront fs.dropLast
    (List.cons_ne_nil (fs.getLast hne) []) (hfs.symm ▸ h)
  rw [hfs, List.length_dropLast] at hrun
  have hfold : fs.foldr step [] = fs.dropLast.foldr step [fs.getLast hne] := by
    conv => lhs; rw [← hfs]
    rw [List.foldr_append, List.foldr_cons, List.foldr_nil, halone]
  rw [hrun, hfold]

end Loops

/-- **Splitting by offsets never fails**: whatever stands before and after the part that is split, the
spans that are left are those of the fragments of this part. -/
theorem splitIn?_eq_spans {operators : List Char} (hascii : ∀ c ∈ operators, c.toNat < 128)
    (before text after : Text) :
    splitIn? operators (before ++ text ++ after)
        ⟨before.byteLength, before.byteLength + text.byteLength⟩ =
      some (spans before.byteLength (split operators text)) := by
  cases text with
  | nil => simp [splitIn?, Span.isEmpty, Span.length, spans]
  | cons c text =>
    have hne : ∀ {fs : List Text}, fs.flatten = c :: text → fs ≠ [] := by
      rintro _ h rfl
      cases h
    have hpos := c.utf8Size_pos
    have hempty : (Span.mk before.byteLength (before.byteLength + Text.byteLength (c :: text))).isEmpty =
        false := by
      simp only [Span.isEmpty, Span.length, Text.byteLength_cons, beq_eq_false_iff_ne]
      omega
    have hcut := flatten_cut operators (c :: text)
    have hglue := flatten_glue (cut operators (c :: text))
    have hsource : before ++ (c :: text) ++ after =
        before ++ (cut operators (c :: text)).flatten ++ after := by rw [hcut]
    have hmerge := runDown?_spans followsAt_glueAt? putsInFront_glueStep (hne hcut) hsource
    have hfold := runDown?_spans followsAt_climbAt? putsInFront_climbStep (hne (hglue.trans hcut))
      (hglue.symm ▸ hsource)
    simp only [splitIn?, hempty, Bool.false_eq_true, if_false, Span.slice?_append,
      cutIn_bytes hascii before.byteLength (List.cons_ne_nil c text), Option.bind_eq_bind,
      Option.bind_some, length_spans]
    rw [hmerge, Option.bind_some, length_spans]
    exact hfold

end Fragment
end Shorthand
