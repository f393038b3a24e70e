import Shorthand.Cursor.Scanning
import Shorthand.Proofs.Fragment.Offsets
import Shorthand.Proofs.Group.Matching

/-! # Groups behind a cursor

A byte below 128 is a character of its own, so a cursor whose next byte is an opener stands between two
characters, and the bytes that the scan counts are those of openers and closers. The count is one more than
the number of inner groups that are open, so no closer finds it at zero. Main statement: the scan reads what
is read by characters, and that is the shortest balanced text behind the cursor, if there is one
(`enclosed?_shortest`). -/

namespace Shorthand.Cursor
open Shorthand.Group (close? Balanced depthAfter)

/-! ## The scan -/

theorem scanGroup?_append_of_not_mem {o c : UInt8} {bs : List UInt8} (ho : o ∉ bs) (hc : c ∉ bs)
    (depth offset : Nat) (bytes : List UInt8) :
    scanGroup? o c depth offset (bs ++ bytes) = scanGroup? o c depth (offset + bs.length) bytes := by
  induction bs generalizing offset with
  | nil => rfl
  | cons b bs ih =>
    obtain ⟨hbo, ho⟩ := not_or.1 (mt List.mem_cons.2 ho)
    obtain ⟨hbc, hc⟩ := not_or.1 (mt List.mem_cons.2 hc)
    rw [List.cons_append, scanGroup?, if_neg (Ne.symm hbo), if_neg (Ne.symm hbc), ih ho hc,
      List.length_cons, Nat.add_assoc, Nat.add_comm 1]

def groupEnd (offset : Nat) (text : Text) (found : Option (Text × Text)) : GroupEnd :=
  found.elim (.missing (offset + text.byteLength)) fun parts => .closer (offset + parts.1.byteLength)

theorem groupEnd_cons (offset : Nat) (c : Char) (text : Text) (found : Option (Text × Text)) :
    groupEnd offset (c :: text) (found.map fun parts => (c :: parts.1, parts.2)) =
      groupEnd (offset + c.utf8Size) text found := by
  cases found with
  | none => simp [groupEnd, Nat.add_assoc]
  | some parts => simp [groupEnd, Nat.add_assoc]

section Scan
variable {opener closer : Char} (hopener : opener.toNat < 128) (hcloser : closer.toNat < 128)
  (hne : opener ≠ closer)
include hopener hcloser hne

theorem byte_ne : UInt8.ofNat closer.toNat ≠ UInt8.ofNat opener.toNat := by
  intro h
  have hmem : UInt8.ofNat opener.toNat ∈ String.utf8EncodeChar closer := by
    rw [Text.encode_ascii hcloser, h]
    exact List.mem_singleton_self _
  exact hne (Text.eq_of_mem_encode hopener hmem).symm

/-- With a group and so many inner ones open, the scan ends at the closer of the group. -/
theorem scanGroup?_bytes (text : Text) : ∀ depth offset : Nat,
    scanGroup? (UInt8.ofNat opener.toNat) (UInt8.ofNat closer.toNat) (depth + 1) offset text.bytes =
      some (groupEnd offset text (close? opener closer depth text)) := by
  induction text with
  | nil => exact fun _ _ => rfl
  | cons c text ih =>
    intro depth offset
    rw [Text.bytes_cons, close?]
    by_cases ho : c = opener
    · subst ho
      rw [Text.encode_ascii hopener, List.singleton_append, scanGroup?, if_pos rfl,
        if_neg fun h => h.2.1 rfl, groupEnd_cons, Text.utf8Size_ascii hopener, ih, depthAfter, if_pos rfl]
    · by_cases hc : c = closer
      · -- the count is the number of inner groups and one more, so it is not zero here
        subst hc
        rw [Text.encode_ascii hcloser, List.singleton_append, scanGroup?,
          if_neg (byte_ne hopener hcloser hne), if_pos rfl, if_neg (Nat.succ_ne_zero depth),
          Nat.add_sub_cancel]
        cases depth with
        | zero => rw [if_pos rfl, if_pos ⟨rfl, ho, rfl⟩]; rfl
        | succ depth =>
          rw [if_neg (Nat.succ_ne_zero depth), if_neg fun h => Nat.succ_ne_zero depth h.2.2, groupEnd_cons,
            Text.utf8Size_ascii hcloser, ih, depthAfter, if_neg ho, if_pos rfl, Nat.add_sub_cancel]
      · rw [scanGroup?_append_of_not_mem (fun hm => ho (Text.eq_of_mem_encode hopener hm))
          (fun hm => hc (Text.eq_of_mem_encode hcloser hm)), String.length_utf8EncodeChar,
          if_neg fun h => hc h.1, groupEnd_cons, ih, depthAfter, if_neg ho, if_neg hc]

end Scan

/-! ## What is read -/

/-- The contents of a group begin one byte behind its opener. -/
theorem offset_add_one {opener : Char} (hopener : opener.toNat < 128) {cur : Cursor} {before : Text}
    (hoffset : cur.offset = before.byteLength) : cur.offset + 1 = (before ++ [opener]).byteLength := by
  rw [hoffset, Text.byteLength_append, Text.byteLength_cons, Text.byteLength_nil, Text.utf8Size_ascii hopener]

section Read
variable {opener closer : Char} {cur : Cursor} {before text : Text}
  (htext : cur.text = before ++ opener :: text) (hoffset : cur.offset = before.byteLength)
include htext hoffset

theorem rest?_eq : cur.rest? = some (opener :: text) := by
  rw [rest?, htext, hoffset, Text.splitAtByte?_append]
  rfl

/-- A group that is closed is read up to its closer, and the cursor is moved behind that. -/
theorem enclosed?_closed {inner after : Text} (h : close? opener closer 0 text = some (inner, after)) :
    cur.enclosed? opener closer =
      some (.closed inner, { cur with offset := (before ++ (opener :: inner ++ [closer])).byteLength }) := by
  have hmove : cur.moveTo after =
      { cur with offset := (before ++ (opener :: inner ++ [closer])).byteLength } := by
    rw [moveTo, htext, Group.append_of_close? h]
    simp only [Text.byteLength_append, Text.byteLength_cons, Text.byteLength_nil, List.cons_append]
    congr 1
    omega
  rw [enclosed?, rest?_eq htext hoffset]
  simp only [h, if_pos, hmove]

/-- A group that is never closed is read to the end. -/
theorem enclosed?_unclosed (h : close? opener closer 0 text = none) :
    cur.enclosed? opener closer = some (.unclosed text, { cur with offset := cur.text.byteLength }) := by
  rw [enclosed?, rest?_eq htext hoffset]
  simp only [h, if_pos]
  rfl

section Take
variable (hopener : opener.toNat < 128)
include hopener

/-- The contents of a group are sliced between two characters. -/
theorem takeGroup?_closer (hcloser : closer.toNat < 128) {inner after : Text}
    (h : text = inner ++ closer :: after) : cur.takeGroup? (.closer (cur.offset + 1 + inner.byteLength)) =
      some (.closed inner, { cur with offset := (before ++ (opener :: inner ++ [closer])).byteLength }) := by
  have hwhole : cur.text = before ++ [opener] ++ inner ++ closer :: after := by
    rw [htext, h]
    simp only [List.append_assoc, List.cons_append, List.nil_append]
  have hstop : cur.offset + 1 + inner.byteLength + 1 =
      (before ++ (opener :: inner ++ [closer])).byteLength := by
    rw [hoffset]
    simp only [Text.byteLength_append, Text.byteLength_cons, Text.byteLength_nil, List.cons_append,
      Text.utf8Size_ascii hopener, Text.utf8Size_ascii hcloser]
    omega
  have hslice := Span.slice?_append (before ++ [opener]) inner (closer :: after)
  rw [← hwhole, ← offset_add_one hopener hoffset] at hslice
  rw [takeGroup?, hslice, ← hstop]
  rfl

/-- So is all that follows the opener of a group without a closer. -/
theorem takeGroup?_missing : cur.takeGroup? (.missing (cur.offset + 1 + text.byteLength)) =
    some (.unclosed text, { cur with offset := cur.text.byteLength }) := by
  have hwhole : cur.text = before ++ [opener] ++ text ++ [] := by
    rw [htext]
    simp only [List.append_assoc, List.cons_append, List.nil_append, List.append_nil]
  have hstop : cur.offset + 1 + text.byteLength = cur.text.byteLength := by
    rw [offset_add_one hopener hoffset, hwhole, List.append_nil, Text.byteLength_append _ text]
  have hmin : min (cur.offset + 1) cur.text.byteLength = cur.offset + 1 := by omega
  have hslice := Span.slice?_append (before ++ [opener]) text []
  rw [← hwhole, ← offset_add_one hopener hoffset, hstop] at hslice
  rw [takeGroup?, hmin, hslice, hstop]
  rfl

/-- Scanning the bytes reads what is read by characters. -/
theorem scanEnclosed?_eq (hcloser : closer.toNat < 128) (hne : opener ≠ closer)
    (hnext : cur.peek? = some (UInt8.ofNat opener.toNat)) :
    scanEnclosed? (UInt8.ofNat opener.toNat) (UInt8.ofNat closer.toNat) cur = cur.enclosed? opener closer := by
  have hguard : (guard (cur.peek? = some (UInt8.ofNat opener.toNat)) : Option Unit) = some () := if_pos hnext
  have hbytes : cur.text.bytes.drop cur.offset = UInt8.ofNat opener.toNat :: Text.bytes text := by
    rw [htext, hoffset, Text.bytes_append, ← Text.length_bytes, List.drop_left, Text.bytes_cons,
      Text.encode_ascii hopener, List.singleton_append]
  have hscan := scanGroup?_bytes hopener hcloser hne text 0 (cur.offset + 1)
  rw [scanEnclosed?, hguard, hbytes, scanGroup?, if_pos rfl, hscan]
  cases h : close? opener closer 0 text with
  | some parts =>
    rw [enclosed?_closed htext hoffset h]
    exact takeGroup?_closer htext hoffset hopener hcloser (Group.append_of_close? h)
  | none =>
    rw [enclosed?_unclosed htext hoffset h]
    exact takeGroup?_missing htext hoffset hopener

end Take
end Read

/-- **The group behind the cursor is the shortest balanced text there.** A cursor whose next byte is an opener
stands between two characters, and counting the groups that are open byte by byte never counts below zero nor
cuts a character. When something that stands there is balanced, the shortest of it is the opener, what is
read and the closer, and what is read is balanced with no closer before its opener; the cursor is moved behind
the closer. Otherwise all that stands behind the opener is read. -/
theorem enclosed?_shortest {opener closer : Char} (hopener : opener.toNat < 128)
    (hcloser : closer.toNat < 128) (hne : opener ≠ closer) {cur : Cursor}
    (hnext : cur.peek? = some (UInt8.ofNat opener.toNat)) :
    (∃ result, cur.enclosed? opener closer = some result ∧
      scanEnclosed? (UInt8.ofNat opener.toNat) (UInt8.ofNat closer.toNat) cur = some result) ∧
    ∃ before text, cur.text = before ++ opener :: text ∧ cur.offset = before.byteLength ∧
      ((∃ inner next, cur.enclosed? opener closer = some (.closed inner, next)) ↔
        ∃ front, front <+: opener :: text ∧ front ≠ [] ∧ Balanced opener closer front) ∧
      (∀ inner next, cur.enclosed? opener closer = some (.closed inner, next) →
        opener :: inner ++ [closer] <+: opener :: text ∧
        Balanced opener closer (opener :: inner ++ [closer]) ∧
        (∀ front, front <+: opener :: text → front ≠ [] → Balanced opener closer front →
          (opener :: inner ++ [closer]).length ≤ front.length) ∧
        Balanced opener closer inner ∧
        (∀ front, front <+: inner → front.count closer ≤ front.count opener) ∧
        next = { cur with offset := (before ++ (opener :: inner ++ [closer])).byteLength }) ∧
      ((¬∃ front, front <+: opener :: text ∧ front ≠ [] ∧ Balanced opener closer front) →
        cur.enclosed? opener closer = some (.unclosed text, { cur with offset := cur.text.byteLength })) := by
  obtain ⟨before, text, htext, hoffset⟩ := Text.exists_of_getElem?_bytes hopener hnext
  rw [scanEnclosed?_eq htext hoffset hopener hcloser hne hnext]
  cases h : close? opener closer 0 text with
  | some parts =>
    obtain ⟨inner, after⟩ := parts
    have hread := enclosed?_closed htext hoffset h
    have hgroup : opener :: inner ++ [closer] <+: opener :: text := by
      rw [Group.append_of_close? h]
      exact ⟨after, by simp⟩
    obtain ⟨hbalanced, hshortest⟩ := Group.shortest_of_close? hne h
    obtain ⟨hcovered, hcount⟩ := Group.closes_of_close? hne h
    have hfront : ∃ front, front <+: opener :: text ∧ front ≠ [] ∧ Balanced opener closer front :=
      ⟨_, hgroup, List.cons_ne_nil _ _, hbalanced⟩
    refine ⟨⟨_, hread, hread⟩, before, text, htext, hoffset, iff_of_true ⟨inner, _, hread⟩ hfront,
      fun inner' next hread' => ?_, fun hno => absurd hfront hno⟩
    rw [hread] at hread'
    cases hread'
    exact ⟨hgroup, hbalanced, hshortest, hcount.symm, hcovered, rfl⟩
  | none =>
    have hread := enclosed?_unclosed htext hoffset h
    have hno : ¬∃ front, front <+: opener :: text ∧ front ≠ [] ∧ Balanced opener closer front := by
      rintro ⟨front, hfront, hfull, hbalanced⟩
      exact (Group.covered_of_close? hne h).not_balanced hne hfront hfull hbalanced
    have hnot : ¬∃ inner next, cur.enclosed? opener closer = some (.closed inner, next) := by
      rintro ⟨inner, next, hclosed⟩
      rw [hread] at hclosed
      cases hclosed
    exact ⟨⟨_, hread, hread⟩, before, text, htext, hoffset, iff_of_false hnot hno,
      fun inner next hclosed => absurd ⟨inner, next, hclosed⟩ hnot, fun _ => hread⟩

/-- A cursor behind a character of two bytes, in front of a group with an inner group and more closers after
it. -/
def behindAccent : Cursor := ⟨"é(a(b)ü)c)".toList, 4, 2⟩

theorem enclosed?_shortest_behindAccent :
    '('.toNat < 128 ∧ ')'.toNat < 128 ∧ '(' ≠ ')' ∧
    behindAccent.peek? = some (UInt8.ofNat '('.toNat) ∧
    behindAccent.enclosed? '(' ')' = some (.closed "a(b)ü".toList, ⟨"é(a(b)ü)c)".toList, 4, 10⟩) ∧
    scanEnclosed? (UInt8.ofNat '('.toNat) (UInt8.ofNat ')'.toNat) behindAccent =
      some (.closed "a(b)ü".toList, ⟨"é(a(b)ü)c)".toList, 4, 10⟩) ∧
    Balanced '(' ')' "(a(b)ü)".toList ∧ Balanced '(' ')' "a(b)ü".toList ∧
    ∀ front, front <+: "a(b)ü".toList → front.count ')' ≤ front.count '(' := by
  have hopener : '('.toNat < 128 := by decide
  have hcloser : ')'.toNat < 128 := by decide
  have hne : '(' ≠ ')' := by decide
  have hnext : behindAccent.peek? = some (UInt8.ofNat '('.toNat) := by decide
  have hread : behindAccent.enclosed? '(' ')' =
      some (.closed "a(b)ü".toList, ⟨"é(a(b)ü)c)".toList, 4, 10⟩) := by decide
  obtain ⟨⟨result, hresult, hscan⟩, before, text, -, -, -, hclosed, -⟩ :=
    enclosed?_shortest hopener hcloser hne hnext
  rw [hread] at hresult
  cases hresult
  obtain ⟨-, hgroup, -, hinner, hcovered, -⟩ := hclosed _ _ hread
  exact ⟨hopener, hcloser, hne, hnext, hread, hscan, hgroup, hinner, hcovered⟩

end Shorthand.Cursor
