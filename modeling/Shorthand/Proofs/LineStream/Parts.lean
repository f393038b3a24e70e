import Shorthand.Proofs.Expansion.Breaking
import Shorthand.Proofs.LineStream.Lines

/-! # Streams in parts

Behind a line feed a stream begins anew: its lines are those of what stands before and those of what
follows, and whether the stream goes on behind a line is seen by the line alone. Main statement: what comes
out of the lines before comes out first, and what follows counts only if the stream goes on behind each of
them (`run_by_lines`). -/

namespace Shorthand.LineStream
open Text.Numbering (wideName)

def IsText (bytes : List UInt8) : Prop := ∃ text, Text.bytes text = bytes

instance (bytes : List UInt8) : Decidable (IsText bytes) :=
  decidable_of_iff ((Text.ofBytes? bytes).isSome = true)
    (Option.isSome_iff_exists.trans (exists_congr fun _ => Text.ofBytes?_eq_some_iff))

/-- All bytes of a line, with the line feed that ends it. -/
def Line.raw (line : Line) : List UInt8 := line.bytes ++ if line.terminated then [10] else []

/-- What a line of a stream is: it holds no line feed, and a last line that none ends is not empty. -/
structure Line.Proper (line : Line) : Prop where
  no_feed : 10 ∉ line.bytes
  ne_nil : line.terminated = false → line.bytes ≠ []

/-! ## Cutting a stream into lines -/

theorem flatMap_raw_consByte (b : UInt8) (ls : List Line) :
    (consByte b ls).flatMap Line.raw = b :: ls.flatMap Line.raw := by
  unfold consByte
  split <;> split <;> simp_all [Line.raw]

/-- The lines put together are the stream. -/
theorem flatMap_raw_lines (input : List UInt8) : (lines input).flatMap Line.raw = input := by
  induction input with
  | nil => rfl
  | cons b input ih =>
    change (consByte b (lines input)).flatMap Line.raw = _
    rw [flatMap_raw_consByte, ih]

theorem proper_consByte {b : UInt8} {ls : List Line} (h : ∀ line ∈ ls, line.Proper) :
    ∀ line ∈ consByte b ls, line.Proper := by
  have hfeed : Line.Proper ⟨[], true⟩ := ⟨List.not_mem_nil, nofun⟩
  unfold consByte
  split
  · rename_i first more
    obtain ⟨hfirst, hmore⟩ := List.forall_mem_cons.1 h
    split
    · exact List.forall_mem_cons.2 ⟨hfeed, h⟩
    · rename_i hb
      refine List.forall_mem_cons.2 ⟨⟨?_, fun _ => List.cons_ne_nil _ _⟩, hmore⟩
      exact fun hm => (List.mem_cons.1 hm).elim (fun he => hb he.symm) hfirst.no_feed
  · split
    · exact List.forall_mem_singleton.2 hfeed
    · rename_i hb
      refine List.forall_mem_singleton.2 ⟨?_, fun _ => List.cons_ne_nil _ _⟩
      exact fun hm => hb (List.mem_singleton.1 hm).symm

theorem proper_of_mem_lines {input : List UInt8} : ∀ line ∈ lines input, line.Proper := by
  induction input with
  | nil => exact nofun
  | cons b input ih => exact proper_consByte ih

/-- A proper line of a stream is cut off from what follows by its line feed. -/
theorem lines_raw_append {line : Line} (h : line.Proper) (hended : line.terminated = true)
    (rest : List UInt8) : lines (line.raw ++ rest) = line :: lines rest := by
  obtain ⟨bytes, terminated⟩ := line
  cases hended
  change lines (bytes ++ [10] ++ rest) = _
  rw [List.append_assoc, List.singleton_append]
  cases bytes with
  | nil => exact lines_feed rest
  | cons b bytes =>
    rw [lines_append (10 :: rest) (List.cons_ne_nil b bytes) h.no_feed, lines_feed]
    simp

theorem lines_raw {line : Line} (h : line.Proper) : lines line.raw = [line] := by
  cases hended : line.terminated with
  | true =>
    have hcut := lines_raw_append h hended []
    rwa [List.append_nil] at hcut
  | false =>
    have hcut := lines_append [] (h.ne_nil hended) h.no_feed
    obtain ⟨bytes, terminated⟩ := line
    cases hended
    exact hcut

theorem lines_flatMap_raw {ls : List Line} (h : ∀ line ∈ ls, line.Proper ∧ line.terminated = true)
    (rest : List UInt8) : lines (ls.flatMap Line.raw ++ rest) = ls ++ lines rest := by
  induction ls with
  | nil => rfl
  | cons line ls ih =>
    obtain ⟨⟨hline, hended⟩, hls⟩ := List.forall_mem_cons.1 h
    rw [List.flatMap_cons, List.append_assoc, lines_raw_append hline hended, ih hls, List.cons_append]

theorem consByte_ne_nil (b : UInt8) (ls : List Line) : consByte b ls ≠ [] := by
  unfold consByte
  split <;> split <;> exact List.cons_ne_nil _ _

/-- A stream that ends with a line feed has no line without one. -/
theorem terminated_of_mem_lines : ∀ {input : List UInt8}, input.getLast? = some 10 →
    ∀ line ∈ lines input, line.terminated = true
  | [b], hend => by
    cases hend
    exact List.forall_mem_singleton.2 rfl
  | b :: c :: input, hend => by
    rw [List.getLast?_cons_cons] at hend
    have ih := terminated_of_mem_lines hend
    have hne : lines (c :: input) ≠ [] := consByte_ne_nil c (lines input)
    obtain ⟨first, more, hlines⟩ := List.exists_cons_of_ne_nil hne
    change ∀ line ∈ consByte b (lines (c :: input)), _
    rw [hlines] at ih ⊢
    obtain ⟨hfirst, hmore⟩ := List.forall_mem_cons.1 ih
    rw [consByte]
    split
    · exact List.forall_mem_cons.2 ⟨rfl, ih⟩
    · exact List.forall_mem_cons.2 ⟨hfirst, hmore⟩

/-- Behind a line feed the stream begins anew. -/
theorem lines_append_of_ended {input : List UInt8} (hend : input.getLast? = some 10) (rest : List UInt8) :
    lines (input ++ rest) = lines input ++ lines rest := by
  have hcut := lines_flatMap_raw (fun line hline =>
    ⟨proper_of_mem_lines line hline, terminated_of_mem_lines hend line hline⟩) rest
  rwa [flatMap_raw_lines] at hcut

/-! ## Lines that are text -/

/-- The carriage return in front of a line feed does not decide whether a line is text. -/
theorem isText_bytes_iff {line : Line} :
    IsText line.bytes ↔ ∃ text, Text.ofBytes? line.content = some text := by
  simp only [Text.ofBytes?_eq_some_iff]
  obtain ⟨bytes, terminated⟩ := line
  constructor
  · rintro ⟨text, rfl⟩
    cases terminated with
    | true => exact ⟨dropReturn text, (content_bytes text).symm⟩
    | false => exact ⟨text, rfl⟩
  · rintro ⟨text, htext⟩
    rw [Line.content] at htext
    split at htext
    · rename_i hreturn
      obtain ⟨front, rfl⟩ := List.getLast?_eq_some_iff.1 (beq_iff_eq.1 (Bool.and_eq_true_iff.1 hreturn).2)
      rw [List.dropLast_concat] at htext
      exact ⟨text ++ ['\r'], by rw [Text.bytes_append, htext]; rfl⟩
    · exact ⟨text, htext⟩

/-- The stream goes on behind the line: it is text, and its expansion does not break off. -/
def Line.Passes (x : Expander) (line : Line) : Prop :=
  IsText line.bytes ∧ ∀ text ∈ Text.ofBytes? line.content, x.expand text ≠ .aborted

theorem forall_passes_iff {x : Expander} {input : List UInt8} :
    (∀ line ∈ lines input, line.Passes x) ↔
      (∀ line ∈ lines input, IsText line.bytes) ∧ Unbroken x input := by
  simp only [Line.Passes, Unbroken, forall_and]

/-! ## What comes out of parts -/

/-- What came out of one part and then out of the next, which is not reached unless the first finished. -/
def Transcript.andThen (first next : Transcript) : Transcript :=
  if first.ending = .finished then ⟨first.output ++ next.output, next.ending⟩ else first

theorem expandLines_cons {x : Expander} {line : Line} (h : line.Passes x) : ∃ out, ∀ ls,
    expandLines x (line :: ls) = ⟨out ++ (expandLines x ls).output, (expandLines x ls).ending⟩ := by
  obtain ⟨hline, hexpand⟩ := h
  obtain ⟨text, htext⟩ := isText_bytes_iff.1 hline
  refine ⟨expandLine x text ++ ['\n'], fun ls => ?_⟩
  rw [expandLines, htext]
  dsimp only
  rw [expandLine?_eq_some (hexpand text htext), List.append_assoc, List.singleton_append]

/-- Nothing is expanded from the first line on that the stream does not go on behind. -/
theorem expandLines_cons_of_not_passes {x : Expander} {line : Line} (h : ¬line.Passes x) (ls : List Line) :
    expandLines x (line :: ls) = ⟨[], if IsText line.bytes then .aborted else .unreadable⟩ := by
  by_cases hline : IsText line.bytes
  · obtain ⟨text, htext⟩ := isText_bytes_iff.1 hline
    have haborted : x.expand text = .aborted := by
      refine Decidable.not_not.1 fun hne => h ⟨hline, fun other hother => ?_⟩
      rwa [← Option.some.inj (htext.symm.trans hother)]
    rw [if_pos hline, expandLines, htext]
    dsimp only
    rw [expandLine?_eq_none haborted]
  · have hnone : Text.ofBytes? line.content = none :=
      Option.eq_none_iff_forall_ne_some.2 fun text htext => hline (isText_bytes_iff.2 ⟨text, htext⟩)
    rw [if_neg hline, expandLines, hnone]

theorem expandLines_append (x : Expander) (ls ls' : List Line) :
    expandLines x (ls ++ ls') = (expandLines x ls).andThen (expandLines x ls') := by
  induction ls with
  | nil => rfl
  | cons line ls ih =>
    rw [List.cons_append]
    by_cases h : line.Passes x
    · obtain ⟨out, hcons⟩ := expandLines_cons h
      rw [hcons, hcons, ih, Transcript.andThen, Transcript.andThen]
      split <;> simp
    · rw [expandLines_cons_of_not_passes h, expandLines_cons_of_not_passes h, Transcript.andThen]
      split <;> rfl

/-- **A stream goes on as if it began anew** behind a line feed, if it finished before. -/
theorem run_append (x : Expander) {input : List UInt8} (hend : input.getLast? = some 10)
    (rest : List UInt8) : run x (input ++ rest) = (run x input).andThen (run x rest) := by
  rw [run, lines_append_of_ended hend, expandLines_append]
  rfl

theorem ending_expandLines {x : Expander} {ls : List Line} :
    (expandLines x ls).ending = .finished ↔ ∀ line ∈ ls, line.Passes x := by
  induction ls with
  | nil => exact iff_of_true rfl nofun
  | cons line ls ih =>
    rw [List.forall_mem_cons]
    by_cases h : line.Passes x
    · obtain ⟨out, hcons⟩ := expandLines_cons h
      rw [hcons, and_iff_right h]
      exact ih
    · rw [expandLines_cons_of_not_passes h]
      refine iff_of_false ?_ fun hall => h hall.1
      dsimp only
      split <;> exact nofun

theorem exists_first_of_not_forall {α : Type} {p : α → Prop} {as : List α} (h : ∃ a ∈ as, ¬p a) :
    ∃ before a after, as = before ++ a :: after ∧ (∀ b ∈ before, p b) ∧ ¬p a := by
  classical
  obtain ⟨a, ha, hp⟩ := h
  have hsome : (as.find? fun a => decide (¬p a)).isSome = true :=
    List.find?_isSome.2 ⟨a, ha, decide_eq_true hp⟩
  obtain ⟨first, hfirst⟩ := Option.isSome_iff_exists.1 hsome
  obtain ⟨hno, before, after, rfl, hbefore⟩ := List.find?_eq_some_iff_append.1 hfirst
  exact ⟨before, first, after, rfl, fun b hb => by simpa using hbefore b hb, of_decide_eq_true hno⟩

/-- A line that is expanded, with a character of two bytes next to what ends it. -/
def accented : Text := "ul>é\r\n".toList

/-- Both bytes of a character, each on a line of its own. -/
def torn : List UInt8 := [0xC3, 10, 0xA9, 10]

def bare : Expander where
  aliases := .empty

end Shorthand.LineStream
