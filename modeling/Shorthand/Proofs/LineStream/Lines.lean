import Shorthand.LineStream
import Shorthand.Proofs.Text.Characters
import Shorthand.Proofs.Text.Utf8

/-! # Streams that are texts

The stream is cut at bytes, before anything is known about characters. In the bytes of a text the cuts fall
between characters, so its lines are those of the text. Main statement: what comes out of the stream of a
text is the expansion of each line of the text, ended by a line feed (`run_bytes`). -/

namespace Shorthand.LineStream

def dropReturn (line : Text) : Text := if line.getLast? = some '\r' then line.dropLast else line

/-- The lines that the pieces between line feeds stand for: each piece but the last is ended by a line
feed, and there is no line behind the last line feed when nothing stands there. -/
def ofPieces : List Text → List Text
  | [] => []
  | [last] => if last.isEmpty then [] else [last]
  | piece :: next :: pieces => dropReturn piece :: ofPieces (next :: pieces)

def textLines (text : Text) : List Text := ofPieces (text.splitOn '\n')

theorem dropReturn_prefix (line : Text) : dropReturn line <+: line := by
  unfold dropReturn
  split
  · exact List.dropLast_prefix line
  · exact List.prefix_refl line

theorem dropReturn_eq_self {line : Text} (h : '\r' ∉ line) : dropReturn line = line :=
  if_neg fun hlast => h (List.mem_of_getLast? hlast)

theorem exists_prefix_of_mem_ofPieces {line : Text} : ∀ {pieces : List Text}, line ∈ ofPieces pieces →
    ∃ piece ∈ pieces, line <+: piece
  | [], h => nomatch h
  | [last], h => by
    rw [ofPieces] at h
    split at h
    · cases h
    · rw [List.mem_singleton] at h
      exact ⟨last, List.mem_cons_self, h ▸ List.prefix_refl line⟩
  | piece :: next :: pieces, h => by
    rw [ofPieces] at h
    rcases List.mem_cons.1 h with rfl | h
    · exact ⟨piece, List.mem_cons_self, dropReturn_prefix piece⟩
    · obtain ⟨later, hlater, hfront⟩ := exists_prefix_of_mem_ofPieces h
      exact ⟨later, List.mem_cons_of_mem piece hlater, hfront⟩

/-- The characters of a line are those of the text without its line feeds. -/
theorem mem_of_mem_textLines {text line : Text} (h : line ∈ textLines text) {c : Char} (hc : c ∈ line) :
    c ∈ text ∧ c ≠ '\n' := by
  obtain ⟨piece, hpiece, hfront⟩ := exists_prefix_of_mem_ofPieces h
  have hmem := hfront.subset hc
  exact ⟨Text.mem_of_mem_splitOn hpiece hmem,
    fun he => Text.not_mem_of_mem_splitOn hpiece (he ▸ hmem)⟩

theorem ofPieces_append {rest : List Text} (hrest : rest ≠ []) : ∀ pieces : List Text,
    ofPieces (pieces ++ rest) = pieces.map dropReturn ++ ofPieces rest
  | [] => rfl
  | [piece] => by
    obtain ⟨next, more, rfl⟩ := List.exists_cons_of_ne_nil hrest
    rfl
  | piece :: next :: pieces => by
    rw [List.cons_append, List.cons_append, ofPieces]
    exact congrArg (dropReturn piece :: ·) (ofPieces_append hrest (next :: pieces))

/-- Text without carriage returns, in front of a line feed, gives lines of its own. -/
theorem textLines_append {text : Text} (h : '\r' ∉ text) (rest : Text) :
    textLines (text ++ '\n' :: rest) = text.splitOn '\n' ++ textLines rest := by
  obtain ⟨p, ps, hp⟩ := List.exists_cons_of_ne_nil (List.splitOn_ne_nil '\n' rest)
  have hne : List.splitOn '\n' rest ≠ [] := hp ▸ List.cons_ne_nil p ps
  rw [textLines, List.splitOn_append_cons_self, ofPieces_append hne]
  refine congrArg (· ++ textLines rest) ?_
  refine (List.map_congr_left fun piece hpiece => ?_).trans (List.map_id _)
  exact dropReturn_eq_self fun hm => h (Text.mem_of_mem_splitOn hpiece hm)

/-! ## Lines of bytes -/

def byteLines : List Text → List Line
  | [] => []
  | [last] => if last.isEmpty then [] else [⟨last.bytes, false⟩]
  | piece :: next :: pieces => ⟨piece.bytes, true⟩ :: byteLines (next :: pieces)

/-- Bytes that are no line feeds go into the first line. -/
theorem lines_append (rest : List UInt8) : ∀ {bs : List UInt8}, bs ≠ [] → 10 ∉ bs →
    lines (bs ++ rest) = match lines rest with
      | line :: more => ⟨bs ++ line.bytes, line.terminated⟩ :: more
      | [] => [⟨bs, false⟩]
  | [], hne, _ => absurd rfl hne
  | [b], _, h => by
    have hb : b ≠ 10 := fun he => h (he ▸ List.mem_cons_self)
    change consByte b (lines rest) = _
    unfold consByte
    split <;> simp_all
  | b :: c :: bs, _, h => by
    have hb : b ≠ 10 := fun he => h (he ▸ List.mem_cons_self)
    have ih := lines_append rest (List.cons_ne_nil c bs) fun hm => h (List.mem_cons_of_mem b hm)
    change consByte b (lines (c :: bs ++ rest)) = _
    rw [ih]
    cases lines rest <;> simp [consByte, hb]

theorem lines_feed (rest : List UInt8) : lines (10 :: rest) = ⟨[], true⟩ :: lines rest := by
  change consByte 10 (lines rest) = _
  unfold consByte
  split <;> simp_all

/-- The lines of the bytes of a text. -/
theorem lines_bytes (text : Text) : lines text.bytes = byteLines (text.splitOn '\n') := by
  induction text with
  | nil => rfl
  | cons c text ih =>
    obtain ⟨p, ps, hp⟩ := List.exists_cons_of_ne_nil (List.splitOn_ne_nil '\n' text)
    rw [Text.bytes_cons, Text.splitOn_cons hp]
    rw [hp] at ih
    split
    · rename_i hc
      subst hc
      change lines (10 :: Text.bytes text) = _
      rw [lines_feed, ih]
      rfl
    · rename_i hc
      have hfree : 10 ∉ String.utf8EncodeChar c := fun hm =>
        hc (Text.eq_of_mem_encode (d := '\n') (by decide) hm)
      rw [lines_append (Text.bytes text) String.utf8EncodeChar_ne_nil hfree, ih]
      cases ps with
      | nil =>
        cases p with
        | nil => simp [byteLines]
        | cons d p => simp [byteLines]
      | cons q ps => simp [byteLines]

theorem getLast?_bytes_eq_return_iff {line : Text} :
    line.bytes.getLast? = some 13 ↔ line.getLast? = some '\r' := by
  rcases List.eq_nil_or_concat line with rfl | ⟨front, c, rfl⟩
  · exact iff_of_false nofun nofun
  · have hne : String.utf8EncodeChar c ≠ [] := String.utf8EncodeChar_ne_nil
    rw [List.concat_eq_append, List.getLast?_concat, Text.bytes_append, Text.bytes_cons, Text.bytes_nil,
      List.append_nil, List.getLast?_append, List.getLast?_eq_some_getLast hne, Option.some_or]
    constructor
    · intro h
      have hmem : 13 ∈ String.utf8EncodeChar c := Option.some.inj h ▸ List.getLast_mem hne
      exact congrArg some (Text.eq_of_mem_encode (d := '\r') (by decide) hmem)
    · intro h
      cases h
      rfl

/-- The carriage return that is no part of a line of bytes is a character of its own. -/
theorem content_bytes (line : Text) :
    Line.content ⟨line.bytes, true⟩ = (dropReturn line).bytes := by
  rw [Line.content, dropReturn]
  by_cases h : line.getLast? = some '\r'
  · have hlast := getLast?_bytes_eq_return_iff.2 h
    rw [if_pos h, if_pos (by simp [hlast])]
    obtain ⟨front, rfl⟩ := List.getLast?_eq_some_iff.1 h
    rw [List.dropLast_concat, Text.bytes_append]
    exact List.dropLast_concat
  · have hlast := mt getLast?_bytes_eq_return_iff.1 h
    rw [if_neg h, if_neg (by simp [hlast])]

/-- What the lines of the bytes of a text hold is the bytes of its lines. -/
theorem map_content_lines (text : Text) :
    (lines text.bytes).map Line.content = (textLines text).map Text.bytes := by
  rw [lines_bytes, textLines]
  induction text.splitOn '\n' with
  | nil => rfl
  | cons p ps ih =>
    cases ps with
    | nil => cases p <;> rfl
    | cons q ps => rw [byteLines, ofPieces, List.map_cons, List.map_cons, ih, content_bytes]

/-! ## What comes out -/

def expandLine (x : Expander) (line : Text) : Text := (x.expand line).toOption.getD line

theorem expandLine?_eq_some {x : Expander} {line : Text} (h : x.expand line ≠ .aborted) :
    expandLine? x line = some (expandLine x line) := by
  rw [expandLine?, expandLine]
  cases hexpand : x.expand line with
  | ok markup => rfl
  | error e => rfl
  | aborted => exact absurd hexpand h

theorem expandLine?_eq_none {x : Expander} {line : Text} (h : x.expand line = .aborted) :
    expandLine? x line = none := by
  rw [expandLine?, h]

theorem expandLine_eq_self {x : Expander} {line : Text} (h : (x.expand line).isOk = false) :
    expandLine x line = line := by
  rw [expandLine]
  cases hexpand : x.expand line with
  | ok markup =>
    rw [hexpand] at h
    cases h
  | error e => rfl
  | aborted => rfl

/-- What comes out of lines of text: their expansions, up to the first that breaks off. -/
def transcript (x : Expander) (texts : List Text) : Transcript where
  output := (texts.takeWhile (x.expand · ≠ .aborted)).flatMap fun text => expandLine x text ++ ['\n']
  ending := if ∀ text ∈ texts, x.expand text ≠ .aborted then .finished else .aborted

theorem ending_transcript_ne (x : Expander) (texts : List Text) : (transcript x texts).ending ≠ .unreadable := by
  dsimp only [transcript]
  split <;> exact nofun

theorem transcript_cons {x : Expander} {text : Text} (h : x.expand text ≠ .aborted) (texts : List Text) :
    transcript x (text :: texts) =
      ⟨expandLine x text ++ '\n' :: (transcript x texts).output, (transcript x texts).ending⟩ := by
  simp [transcript, h]

theorem transcript_cons_of_aborted {x : Expander} {text : Text} (h : x.expand text = .aborted)
    (texts : List Text) : transcript x (text :: texts) = ⟨[], .aborted⟩ := by
  simp [transcript, h]

/-- Lines that are texts are expanded one by one. -/
theorem expandLines_eq (x : Expander) : ∀ {ls : List Line} {texts : List Text},
    ls.map Line.content = texts.map Text.bytes → expandLines x ls = transcript x texts
  | [], texts, h => by
    cases List.map_eq_nil_iff.1 h.symm
    rfl
  | l :: ls, [], h => nomatch h
  | l :: ls, text :: texts, h => by
    obtain ⟨hl, hls⟩ := List.cons.inj h
    rw [expandLines, hl, Text.ofBytes?_bytes]
    dsimp only
    by_cases hexpand : x.expand text = .aborted
    · rw [transcript_cons_of_aborted hexpand, expandLine?_eq_none hexpand]
    · rw [transcript_cons hexpand, expandLine?_eq_some hexpand, expandLines_eq x hls]

/-- **The stream of a text** is the expansion of each of its lines, ended by a line feed, up to the first
whose expansion breaks off. -/
theorem run_bytes (x : Expander) (text : Text) : run x text.bytes = transcript x (textLines text) :=
  expandLines_eq x (map_content_lines text)

/-- No line of the stream has an expansion. -/
def Unexpandable (x : Expander) (input : List UInt8) : Prop :=
  ∀ line ∈ lines input, ∀ text ∈ Text.ofBytes? line.content, (x.expand text).isOk = false

/-- The expansion of no line of the stream breaks off. -/
def Unbroken (x : Expander) (input : List UInt8) : Prop :=
  ∀ line ∈ lines input, ∀ text ∈ Text.ofBytes? line.content, x.expand text ≠ .aborted

theorem forall_lines_iff {p : Text → Prop} (text : Text) :
    (∀ line ∈ lines text.bytes, ∀ t ∈ Text.ofBytes? line.content, p t) ↔ ∀ t ∈ textLines text, p t := by
  have hlines : (∀ line ∈ lines text.bytes, ∀ t ∈ Text.ofBytes? line.content, p t) ↔
      ∀ content ∈ (lines text.bytes).map Line.content, ∀ t ∈ Text.ofBytes? content, p t := by
    rw [List.forall_mem_map]
  rw [hlines, map_content_lines, List.forall_mem_map]
  simp only [Text.ofBytes?_bytes, Option.mem_def, Option.some.injEq, forall_eq']

end Shorthand.LineStream
