import Mathlib.Data.List.TakeWhile
import Shorthand.Proofs.LineStream.Lines

/-! # Streams that nothing is expanded in

Lines that have no expansion come out as they are, but what ends them does not: each comes out with a line
feed behind it, whatever ended it before (`run_of_unexpandable`). Main statement: the stream comes out as
it went in exactly when line feeds alone end its lines and no line breaks the run off. -/

namespace Shorthand.LineStream

/-- The text with one line feed at the end of each line: a carriage return in front of a line feed is left
out, and a line feed is put behind a last line that has none. -/
def endLines : Text → Text
  | [] => []
  | [c] => if c = '\n' then [c] else [c, '\n']
  | c :: d :: text =>
    if c = '\r' ∧ d = '\n' then endLines (d :: text) else c :: endLines (d :: text)

/-- Every line is ended by a line feed, and by nothing else. -/
structure FeedEnded (text : Text) : Prop where
  ended : ∀ c ∈ text.getLast?, c = '\n'
  no_return : ¬['\r', '\n'] <:+: text

theorem dropReturn_cons_cons (c d : Char) (line : Text) :
    dropReturn (c :: d :: line) = c :: dropReturn (d :: line) := by
  rw [dropReturn, dropReturn, List.getLast?_cons_cons]
  split <;> rfl

/-! ## One more character in front -/

theorem textLines_feed (text : Text) : textLines ('\n' :: text) = [] :: textLines text := by
  obtain ⟨p, ps, hp⟩ := List.exists_cons_of_ne_nil (List.splitOn_ne_nil '\n' text)
  rw [textLines, textLines, Text.splitOn_cons hp, if_pos rfl, hp]
  rfl

theorem textLines_return (text : Text) :
    textLines ('\r' :: '\n' :: text) = textLines ('\n' :: text) := by
  obtain ⟨p, ps, hp⟩ := List.exists_cons_of_ne_nil (List.splitOn_ne_nil '\n' text)
  have hfeed := Text.splitOn_cons (c := '\n') hp
  rw [if_pos rfl] at hfeed
  rw [textLines, textLines, Text.splitOn_cons hfeed, if_neg (by decide), hfeed]
  rfl

/-- Any other character goes into the first line. -/
theorem textLines_cons_cons {c d : Char} (hc : c ≠ '\n') (hcd : ¬(c = '\r' ∧ d = '\n')) (text : Text) :
    ∃ line more, textLines (d :: text) = line :: more ∧
      textLines (c :: d :: text) = (c :: line) :: more := by
  obtain ⟨p, ps, hp⟩ := List.exists_cons_of_ne_nil (List.splitOn_ne_nil '\n' text)
  have hpieces := Text.splitOn_cons (c := d) hp
  by_cases hd : d = '\n'
  · rw [if_pos hd] at hpieces
    have hkept : dropReturn [c] = [c] := if_neg fun h => hcd ⟨Option.some.inj h, hd⟩
    refine ⟨[], ofPieces (p :: ps), by rw [textLines, hpieces]; rfl, ?_⟩
    rw [textLines, Text.splitOn_cons hpieces, if_neg hc, ofPieces, hkept]
  · rw [if_neg hd] at hpieces
    rw [textLines, textLines, Text.splitOn_cons hpieces, if_neg hc, hpieces]
    cases ps with
    | nil => exact ⟨_, _, rfl, rfl⟩
    | cons q ps => exact ⟨_, _, rfl, by rw [ofPieces, dropReturn_cons_cons]⟩

/-- Lines that are written behind one another, each with a line feed. -/
theorem flatMap_textLines : ∀ text : Text,
    (textLines text).flatMap (· ++ ['\n']) = endLines text
  | [] => rfl
  | [c] => by
    rw [endLines]
    split
    · rename_i hc
      subst hc
      rfl
    · rename_i hc
      have hpieces : List.splitOn '\n' [c] = [[c]] := List.splitOn_eq_singleton (by simpa using Ne.symm hc)
      rw [textLines, hpieces]
      rfl
  | c :: d :: text => by
    have ih := flatMap_textLines (d :: text)
    rw [endLines, ← ih]
    split
    · rename_i hcd
      obtain ⟨rfl, rfl⟩ := hcd
      rw [textLines_return]
    · rename_i hcd
      by_cases hc : c = '\n'
      · subst hc
        rw [textLines_feed]
        rfl
      · obtain ⟨line, more, hrest, hall⟩ := textLines_cons_cons hc hcd text
        rw [hrest, hall]
        rfl

/-! ## What comes out -/

/-- **What does not expand comes out line by line**, each line ended by a line feed, up to the first whose
expansion breaks off. -/
theorem transcript_of_unexpandable {x : Expander} {texts : List Text}
    (h : ∀ text ∈ texts, (x.expand text).isOk = false) :
    (transcript x texts).output = (texts.takeWhile (x.expand · ≠ .aborted)).flatMap (· ++ ['\n']) := by
  have hecho : ∀ text ∈ texts.takeWhile (x.expand · ≠ .aborted),
      expandLine x text ++ ['\n'] = text ++ ['\n'] := fun text htext =>
    congrArg (· ++ ['\n']) (expandLine_eq_self (h text ((List.takeWhile_sublist _).subset htext)))
  rw [transcript, List.flatMap_def, List.flatMap_def, List.map_congr_left hecho]

theorem run_of_unexpandable {x : Expander} {text : Text} (h : Unexpandable x text.bytes)
    (hunbroken : Unbroken x text.bytes) : run x text.bytes = ⟨endLines text, .finished⟩ := by
  have hlines := (forall_lines_iff text).1 h
  have hall := (forall_lines_iff text).1 hunbroken
  have houtput := transcript_of_unexpandable hlines
  rw [List.takeWhile_eq_self_iff.2 fun line hline => decide_eq_true (hall line hline),
    flatMap_textLines] at houtput
  rw [run_bytes, ← houtput, transcript, if_pos hall]

theorem not_aborted_nil (x : Expander) : x.expand [] ≠ .aborted := nofun

theorem exists_endLines_feed (text : Text) : ∃ rest, endLines ('\n' :: text) = '\n' :: rest := by
  cases text with
  | nil => exact ⟨[], rfl⟩
  | cons c text => exact ⟨_, if_neg fun h => absurd h.1 (by decide)⟩

theorem feedEnded_cons_cons {c d : Char} (h : ¬(c = '\r' ∧ d = '\n')) {text : Text} :
    FeedEnded (c :: d :: text) ↔ FeedEnded (d :: text) := by
  have hpair : ['\r', '\n'] <:+: c :: d :: text ↔ ['\r', '\n'] <:+: d :: text := by
    rw [List.infix_cons_iff, or_iff_right]
    intro hfront
    obtain ⟨hc, hrest⟩ := List.cons_prefix_cons.1 hfront
    exact h ⟨hc.symm, (List.cons_prefix_cons.1 hrest).1.symm⟩
  constructor
  · rintro ⟨hend, hno⟩
    exact ⟨by rwa [List.getLast?_cons_cons] at hend, mt hpair.2 hno⟩
  · rintro ⟨hend, hno⟩
    exact ⟨by rwa [List.getLast?_cons_cons], mt hpair.1 hno⟩

/-- Nothing has to be changed about a text whose lines are ended by line feeds, and only about such a
text. -/
theorem endLines_eq_self_iff : ∀ {text : Text}, endLines text = text ↔ FeedEnded text
  | [] => iff_of_true rfl ⟨nofun, by simp⟩
  | [c] => by
    rw [endLines]
    split
    · rename_i hc
      exact iff_of_true rfl ⟨fun d hd => by cases hd; exact hc, fun h => by
        simpa using h.length_le⟩
    · rename_i hc
      exact iff_of_false (by simp) fun h => hc (h.ended c rfl)
  | c :: d :: text => by
    rw [endLines]
    split
    · rename_i h
      obtain ⟨rfl, rfl⟩ := h
      obtain ⟨rest, hrest⟩ := exists_endLines_feed text
      refine iff_of_false ?_ fun h => h.no_return ⟨[], text, rfl⟩
      rw [hrest]
      intro he
      exact absurd (List.cons.inj he).1 (by decide)
    · rename_i h
      rw [List.cons.injEq, feedEnded_cons_cons h, endLines_eq_self_iff, and_iff_right rfl]

/-- At most the line feed behind the last line is new. -/
theorem length_endLines_le : ∀ text : Text, (endLines text).length ≤ text.length + 1
  | [] => Nat.zero_le _
  | [c] => by
    rw [endLines]
    split <;> simp
  | c :: d :: text => by
    have ih := length_endLines_le (d :: text)
    rw [endLines]
    split <;> simp only [List.length_cons] at ih ⊢ <;> omega

/-- A stream that breaks off comes out shorter than it went in. -/
theorem length_transcript_lt {x : Expander} {text : Text}
    (h : ∀ line ∈ textLines text, (x.expand line).isOk = false)
    (hbroken : ¬∀ line ∈ textLines text, x.expand line ≠ .aborted) :
    (transcript x (textLines text)).output.length < text.length := by
  have hrest : (textLines text).dropWhile (x.expand · ≠ .aborted) ≠ [] := fun hnil =>
    hbroken fun line hline => of_decide_eq_true (List.dropWhile_eq_nil_iff.1 hnil line hline)
  have hhead := List.head_dropWhile_not (fun line => decide (x.expand line ≠ .aborted)) hrest
  obtain ⟨bad, after, hbad⟩ := List.exists_cons_of_ne_nil hrest
  simp only [hbad, List.head_cons] at hhead
  have haborted : x.expand bad = .aborted := Decidable.not_not.1 (of_decide_eq_false hhead)
  have hne : bad.length ≠ 0 := fun hnil =>
    not_aborted_nil x (List.length_eq_zero_iff.1 hnil ▸ haborted)
  have hlength := congrArg List.length (flatMap_textLines text)
  have hle := length_endLines_le text
  rw [← List.takeWhile_append_dropWhile (l := textLines text), hbad, List.flatMap_append, List.flatMap_cons,
    ← transcript_of_unexpandable h] at hlength
  simp only [List.length_append, List.length_singleton] at hlength
  omega

/-- **What does not expand comes out as it went in** exactly when line feeds alone end its lines and no line
breaks the run off. -/
theorem run_eq_input_iff {x : Expander} {text : Text} (h : Unexpandable x text.bytes) :
    (run x text.bytes).ending ≠ .unreadable ∧
      ((run x text.bytes).ending = .finished ↔ Unbroken x text.bytes) ∧
      ((run x text.bytes).output.bytes = text.bytes ↔ FeedEnded text ∧ Unbroken x text.bytes) := by
  have hlines := (forall_lines_iff text).1 h
  by_cases hunbroken : Unbroken x text.bytes
  · rw [run_of_unexpandable h hunbroken]
    exact ⟨nofun, iff_of_true rfl hunbroken,
      fun he => ⟨endLines_eq_self_iff.1 (Text.bytes_injective he), hunbroken⟩,
      fun he => congrArg Text.bytes (endLines_eq_self_iff.2 he.1)⟩
  · have hbroken := mt (forall_lines_iff text).2 hunbroken
    have hshort := length_transcript_lt hlines hbroken
    have hending : (transcript x (textLines text)).ending = .aborted := if_neg hbroken
    rw [run_bytes, hending]
    refine ⟨nofun, iff_of_false nofun hunbroken, iff_of_false (fun he => ?_) fun he => hunbroken he.2⟩
    rw [Text.bytes_injective he] at hshort
    exact Nat.lt_irrefl _ hshort

/-- Lines of prose, an empty one among them and one that begins with a carriage return. -/
def prose : Text := "a b\n\n\rc d\n".toList

theorem run_prose : Unexpandable {} prose.bytes ∧ FeedEnded prose ∧ Unbroken {} prose.bytes ∧
    (run {} prose.bytes).ending ≠ .unreadable ∧
      ((run {} prose.bytes).ending = .finished ↔ Unbroken {} prose.bytes) ∧
      ((run {} prose.bytes).output.bytes = prose.bytes ↔ FeedEnded prose ∧ Unbroken {} prose.bytes) :=
  have hno : Unexpandable {} prose.bytes := (forall_lines_iff _).2 (by decide)
  ⟨hno, endLines_eq_self_iff.1 (by decide), (forall_lines_iff _).2 (by decide), run_eq_input_iff hno⟩

/-- A carriage return in front of a line feed is lost, and a line feed is put behind the last line. -/
theorem run_drops_return : Unexpandable {} (Text.bytes "a b\r\nc d".toList) ∧
    run {} (Text.bytes "a b\r\nc d".toList) = ⟨"a b\nc d\n".toList, .finished⟩ ∧
      (run {} (Text.bytes "a b\r\nc d".toList)).output.bytes ≠ Text.bytes "a b\r\nc d".toList := by
  have hno : Unexpandable {} (Text.bytes "a b\r\nc d".toList) :=
    (forall_lines_iff _).2 (by decide)
  have hunbroken : Unbroken {} (Text.bytes "a b\r\nc d".toList) :=
    (forall_lines_iff _).2 (by decide)
  have hrun := run_of_unexpandable hno hunbroken
  refine ⟨hno, hrun, ?_⟩
  rw [hrun]
  decide

end Shorthand.LineStream
