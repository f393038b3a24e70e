import Shorthand.Proofs.Expansion.Characters
import Shorthand.Proofs.Expansion.Rendering
import Shorthand.Proofs.LineStream.Echo
import Shorthand.Proofs.Markup.Settled
import Shorthand.Proofs.Rules

/-! # Streams that were expanded before

The rules turn markup away, so no line of what came out of a stream is expanded when it goes in again: it is
either a line of markup or a line that had no expansion. Main statement: `run_run`. -/

namespace Shorthand
open Markup (Quiet)

theorem Markup.supplied_quiet : Supplied Quiet where
  digit c hc hm := by
    rcases List.mem_cons.1 hm with rfl | hm
    · exact absurd hc (by decide)
    · rcases List.mem_cons.1 hm with rfl | hm
      · exact absurd hc (by decide)
      · cases List.mem_singleton.1 hm
        exact absurd hc (by decide)
  fixed := by
    have hall : fixedTexts.all (fun text => text.all fun c => decide (Quiet c)) = true := by decide
    exact fun text ht => Text.forall_mem_of_all (List.all_eq_true.1 hall text ht)

namespace Expander

variable {x : Expander}

theorem expand_of_reserved {text : Text} {c : Char} (hc : c ∈ text)
    (hreserved : Rules.reserved.contains c = true) : ∃ e, x.expand text = .error e := by
  obtain ⟨r, hr⟩ := x.rules.check_of_reserved hc hreserved
  exact ⟨.rejected r, by rw [expand, forest, hr]⟩

/-- Each line of the markup of an abbreviation is turned away. -/
theorem expand_line_of_markup (haliases : x.aliases.Holds Quiet) (hindent : ∀ c ∈ x.indent, Quiet c)
    {text markup : Text} (htext : ∀ c ∈ text, Quiet c) (h : x.expand text = .ok markup) :
    ∀ line ∈ markup.splitOn '\n', ∃ e, x.expand line = .error e := by
  obtain ⟨forest, hforest, rfl⟩ := exists_forest_of_expand_eq_ok h
  have hholds := forall_rows_holds Markup.supplied_quiet haliases htext hforest
  intro line hline
  exact expand_of_reserved (c := '<')
    (Markup.lt_mem_of_mem_splitOn_render hindent (forest_eq_ok hforest).1 hholds line hline) rfl

end Expander

namespace LineStream

/-- Comes out line by line as it is, when it goes in in front of a line feed. -/
structure Settled (x : Expander) (text : Text) : Prop where
  no_return : '\r' ∉ text
  refused : ∀ line ∈ text.splitOn '\n', ∃ e, x.expand line = .error e

theorem settled_expandLine {x : Expander} (haliases : x.aliases.Holds Quiet)
    (hindent : ∀ c ∈ x.indent, Quiet c) {line : Text} (hline : ∀ c ∈ line, Quiet c)
    (hmade : x.expand line ≠ .aborted) : Settled x (expandLine x line) := by
  cases h : x.expand line with
  | aborted => exact absurd h hmade
  | ok markup =>
    have hmarkup : expandLine x line = markup := by
      rw [expandLine, h]
      rfl
    obtain ⟨forest, -, hrender⟩ := Expander.exists_forest_of_expand_eq_ok h
    rw [hmarkup]
    exact {
      no_return := by
        rw [hrender]
        exact Text.Lines.not_mem_tidy _
      refused := Expander.expand_line_of_markup haliases hindent hline h }
  | error e =>
    have hfeed : '\n' ∉ line := fun hm => hline '\n' hm (by decide)
    rw [expandLine_eq_self (by rw [h]; rfl)]
    exact {
      no_return := fun hm => hline '\r' hm (by decide)
      refused := by
        rw [List.splitOn_eq_singleton hfeed]
        exact List.forall_mem_singleton.2 ⟨e, h⟩ }

/-- Each line of settled texts, with a line feed behind each of them, is turned away. -/
theorem expand_of_settled {x : Expander} : ∀ {texts : List Text}, (∀ text ∈ texts, Settled x text) →
    ∀ line ∈ textLines (texts.flatMap (· ++ ['\n'])), ∃ e, x.expand line = .error e
  | [], _, _, hline => nomatch hline
  | text :: texts, h, line, hline => by
    obtain ⟨htext, htexts⟩ := List.forall_mem_cons.1 h
    rw [List.flatMap_cons, List.append_assoc, List.singleton_append,
      textLines_append htext.no_return, List.mem_append] at hline
    exact hline.elim (htext.refused line) (expand_of_settled htexts line)

theorem feedEnded_of_settled {x : Expander} {texts : List Text} (h : ∀ text ∈ texts, Settled x text) :
    FeedEnded (texts.flatMap (· ++ ['\n'])) where
  ended := by
    intro c hc
    rcases List.eq_nil_or_concat texts with rfl | ⟨front, last, rfl⟩
    · cases hc
    · simp at hc
      exact hc.symm
  no_return := by
    intro hpair
    obtain ⟨line, hline, hc⟩ := List.mem_flatMap.1 (hpair.subset List.mem_cons_self)
    rcases List.mem_append.1 hc with hc | hc
    · exact (h line hline).no_return hc
    · exact absurd (List.mem_singleton.1 hc) (by decide)

/-- **What came out of a stream comes out again as it is**, and no line of any markup in it has an
expansion, when neither the stream nor the indent nor what aliases stand for holds a carriage return or an
ampersand, and the latter two no line feed. This holds also of what came out before the stream broke off. -/
theorem run_run {x : Expander} (haliases : x.aliases.Holds Quiet) (hindent : ∀ c ∈ x.indent, Quiet c)
    {text : Text} (htext : ∀ c ∈ text, c ∉ ['\r', '&']) :
    (run x text.bytes).ending ≠ .unreadable ∧
    run x (run x text.bytes).output.bytes = ⟨(run x text.bytes).output, .finished⟩ ∧
    ∀ line ∈ lines text.bytes, ∀ abbreviation ∈ Text.ofBytes? line.content,
      ∀ markup, x.expand abbreviation = .ok markup →
        ∀ l ∈ markup.splitOn '\n', (x.expand l).isOk = false := by
  have hquiet : ∀ line ∈ textLines text, ∀ c ∈ line, Quiet c := by
    intro line hline c hc
    obtain ⟨hmem, hfeed⟩ := mem_of_mem_textLines hline hc
    have hother := htext c hmem
    simp only [Quiet, List.mem_cons, List.not_mem_nil, or_false, not_or] at hother ⊢
    exact ⟨hother.1, hfeed, hother.2⟩
  -- what came out, line by line, before the stream ended or broke off
  let outs := ((textLines text).takeWhile (x.expand · ≠ .aborted)).map (expandLine x)
  have hsettled : ∀ out ∈ outs, Settled x out := by
    refine List.forall_mem_map.2 fun line hline => ?_
    have hmade := List.mem_takeWhile_imp hline
    exact settled_expandLine haliases hindent (hquiet line ((List.takeWhile_sublist _).subset hline))
      (of_decide_eq_true hmade)
  have houtput : (run x text.bytes).output = outs.flatMap (· ++ ['\n']) := by
    rw [run_bytes, transcript, List.flatMap_map]
  have hrefused := expand_of_settled hsettled
  refine ⟨?_, ?_, (forall_lines_iff text).2 fun line hline markup h l hl => ?_⟩
  · rw [run_bytes]
    exact ending_transcript_ne x _
  · have hunexpandable : Unexpandable x (Text.bytes (outs.flatMap (· ++ ['\n']))) :=
      (forall_lines_iff _).2 fun line hline => by
        obtain ⟨e, he⟩ := hrefused line hline
        rw [he]
        rfl
    have hunbroken : Unbroken x (Text.bytes (outs.flatMap (· ++ ['\n']))) :=
      (forall_lines_iff _).2 fun line hline => by
        obtain ⟨e, he⟩ := hrefused line hline
        rw [he]
        intro haborted
        cases haborted
    rw [houtput, run_of_unexpandable hunexpandable hunbroken,
      endLines_eq_self_iff.2 (feedEnded_of_settled hsettled)]
  · obtain ⟨e, he⟩ := Expander.expand_line_of_markup haliases hindent (hquiet line hline) h l hl
    rw [he]
    rfl

/-- An expander whose indent looks like markup and whose rules let markup end as it does. -/
def lenient : Expander where
  aliases := .empty
  rules := { escapePrefixes := [], verbatimKeywords := ["<".toList, ">".toList] }
  indent := "> ".toList

/-- A line that is expanded, an empty one, and one that has no expansion and no end. -/
def mixed : Text := "ul>li{$ of 2}*2\n\na b".toList

theorem run_run_mixed : lenient.aliases.Holds Quiet ∧ (∀ c ∈ lenient.indent, Quiet c) ∧
    (∀ c ∈ mixed, c ∉ ['\r', '&']) ∧
    (run lenient mixed.bytes).output =
      "<ul>\n> <li>1 of 2</li>\n> <li>2 of 2</li>\n</ul>\n\na b\n".toList ∧
    (run lenient mixed.bytes).ending ≠ .unreadable ∧
    run lenient (run lenient mixed.bytes).output.bytes = ⟨(run lenient mixed.bytes).output, .finished⟩ ∧
    ∀ line ∈ lines mixed.bytes, ∀ abbreviation ∈ Text.ofBytes? line.content,
      ∀ markup, lenient.expand abbreviation = .ok markup →
        ∀ l ∈ markup.splitOn '\n', (lenient.expand l).isOk = false := by
  have haliases : lenient.aliases.Holds Quiet := nofun
  have hindent : ∀ c ∈ lenient.indent, Quiet c := Text.forall_mem_of_all (by decide)
  have hmixed : ∀ c ∈ mixed, c ∉ ['\r', '&'] := Text.forall_mem_of_all (by decide)
  refine ⟨haliases, hindent, hmixed, ?_, run_run haliases hindent hmixed⟩
  rw [run_bytes]
  decide +kernel

end LineStream
end Shorthand
