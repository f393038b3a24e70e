import Shorthand.Proofs.Text
import Shorthand.Text.Lines

/-! # Texts made tidy

Tidying drops and writes line breaks and no other characters. Main statement: lines that are not empty and
hold no breaks are the pieces of the tidy text that they are written to (`splitOn_tidy`). -/

namespace Shorthand.Text.Lines

/-! ## Other characters -/

section Count

variable {p : Char → Bool}

theorem countP_dropWhile {drop : Char → Bool} (h : ∀ c, drop c = true → p c = false) (text : Text) :
    (text.dropWhile drop).countP p = text.countP p := by
  induction text with
  | nil => rfl
  | cons c text ih =>
    cases hc : drop c with
    | true => rw [List.dropWhile_cons_of_pos hc, ih, List.countP_cons_of_neg (by simp [h c hc])]
    | false => rw [List.dropWhile_cons_of_neg (by simp [hc])]

variable (h : ∀ c, isBreak c = true → p c = false)
include h

theorem countP_collapseStep (c : Char) (text : Text) :
    (collapseStep c text).countP p = (c :: text).countP p := by
  unfold collapseStep
  split
  · rename_i hc
    have hdropped : (c :: text).countP p = text.countP p :=
      List.countP_cons_of_neg (by simp [h c hc])
    split
    · rw [hdropped]
    · rw [hdropped, List.countP_cons_of_neg (by simp [h '\n' rfl])]
  · rfl

theorem countP_collapse (text : Text) : (collapse text).countP p = text.countP p := by
  induction text with
  | nil => rfl
  | cons c text ih =>
    change (collapseStep c (collapse text)).countP p = _
    rw [countP_collapseStep h, List.countP_cons, List.countP_cons, ih]

/-- Characters that are no breaks are as many as before. -/
theorem countP_tidy (text : Text) : (tidy text).countP p = text.countP p := by
  rw [tidy, countP_collapse h, trimBy, List.countP_reverse, countP_dropWhile h, List.countP_reverse,
    countP_dropWhile h]

end Count

/-! ## Lines that are put together -/

structure IsLine (line : Text) : Prop where
  ne_nil : line ≠ []
  no_break : ∀ c ∈ line, isBreak c = false

theorem IsLine.newline_not_mem {line : Text} (h : IsLine line) : '\n' ∉ line := fun hm =>
  absurd (h.no_break '\n' hm) (by decide)

theorem collapse_cons {c : Char} (hc : isBreak c = false) (text : Text) :
    collapse (c :: text) = c :: collapse text := by
  change collapseStep c (collapse text) = _
  unfold collapseStep
  rw [if_neg (by rw [hc]; exact nofun)]

theorem collapse_append : ∀ {u : Text}, (∀ c ∈ u, isBreak c = false) → ∀ text : Text,
    collapse (u ++ text) = u ++ collapse text
  | [], _, _ => rfl
  | c :: u, h, text => by
    rw [List.cons_append, collapse_cons (h c List.mem_cons_self),
      collapse_append (fun d hd => h d (List.mem_cons_of_mem c hd)) text, List.cons_append]

/-- Runs of breaks end at a character that is none. -/
theorem collapse_append_cons {c : Char} (hc : isBreak c = false) (u text : Text) :
    collapse (u ++ c :: text) = collapse u ++ c :: collapse text := by
  induction u with
  | nil => exact collapse_cons hc text
  | cons d u ih =>
    change collapseStep d (collapse (u ++ c :: text)) = collapseStep d (collapse u) ++ c :: collapse text
    rw [ih]
    unfold collapseStep
    by_cases hd : isBreak d = true
    · rw [if_pos hd, if_pos hd]
      cases hu : collapse u with
      | nil =>
        have hne : c ≠ '\n' := by
          rintro rfl
          cases hc
        simp [hne]
      | cons x rest =>
        by_cases hx : x = '\n' <;> simp [hx]
    · simp [hd]

/-- Of a run of breaks one line feed is left. -/
theorem not_infix_collapse (text : Text) : ¬ ['\n', '\n'] <:+: collapse text := by
  induction text with
  | nil =>
    intro h
    exact nomatch List.infix_nil.1 h
  | cons c text ih =>
    change ¬ _ <:+: collapseStep c (collapse text)
    unfold collapseStep
    split
    · split
      · exact ih
      · rename_i hfirst
        rw [List.infix_cons_iff]
        rintro (h | h)
        · obtain ⟨-, rest, hrest⟩ := List.cons_prefix_cons.1 h
          exact hfirst rest hrest.symm
        · exact ih h
    · rename_i hc
      rw [List.infix_cons_iff]
      rintro (h | h)
      · obtain ⟨rfl, -⟩ := List.cons_prefix_cons.1 h
        exact hc rfl
      · exact ih h

/-- A text that lies between two characters that are no breaks stays between them. -/
theorem tidy_between {c d : Char} (hc : isBreak c = false) (hd : isBreak d = false) (text : Text) :
    tidy (c :: text ++ [d, '\n']) = c :: collapse text ++ [d] := by
  have hfront : (c :: text ++ [d, '\n']).dropWhile isBreak = c :: text ++ [d, '\n'] :=
    dropWhile_eq_self fun x hx => by cases hx; exact hc
  have hback : (c :: text ++ [d, '\n']).reverse.dropWhile isBreak = d :: (c :: text).reverse := by
    rw [List.reverse_append]
    change ('\n' :: d :: (c :: text).reverse).dropWhile isBreak = _
    rw [List.dropWhile_cons_of_pos rfl, dropWhile_eq_self fun x hx => by cases hx; exact hd]
  rw [tidy, trimBy, hfront, hback, List.reverse_cons, List.reverse_reverse, List.cons_append,
    collapse_cons hc, collapse_append_cons hd]
  rfl

/-- One break in front of a character that is none stays. -/
theorem collapse_newline {c : Char} (hc : isBreak c = false) (text : Text) :
    collapse ('\n' :: c :: text) = '\n' :: collapse (c :: text) := by
  change collapseStep '\n' (collapse (c :: text)) = _
  rw [collapse_cons hc]
  unfold collapseStep
  rw [if_pos (show isBreak '\n' = true from rfl)]
  split
  · rename_i htext
    obtain ⟨rfl, -⟩ := List.cons.inj htext
    cases hc
  · rfl

/-- What lines are written to begins like the first of them. -/
theorem exists_cons_written {last : Text} (hlast : IsLine last) : ∀ {lines : List Text},
    (∀ l ∈ lines, IsLine l) →
      ∃ c text, lines.flatMap (· ++ ['\n']) ++ last = c :: text ∧ isBreak c = false
  | [], _ => by
    obtain ⟨c, text, rfl⟩ := List.exists_cons_of_ne_nil hlast.ne_nil
    exact ⟨c, text, rfl, hlast.no_break c List.mem_cons_self⟩
  | l :: lines, h => by
    have hl := h l List.mem_cons_self
    obtain ⟨c, text, rfl⟩ := List.exists_cons_of_ne_nil hl.ne_nil
    exact ⟨c, _, rfl, hl.no_break c List.mem_cons_self⟩

theorem splitOn_collapse {last : Text} (hlast : IsLine last) : ∀ {lines : List Text},
    (∀ l ∈ lines, IsLine l) →
      (collapse (lines.flatMap (· ++ ['\n']) ++ last)).splitOn '\n' = lines ++ [last]
  | [], _ => by
    have hcollapse := collapse_append hlast.no_break []
    rw [List.append_nil] at hcollapse
    rw [List.flatMap_nil, List.nil_append, hcollapse]
    exact (congrArg (List.splitOn '\n') (List.append_nil last)).trans
      (List.splitOn_eq_singleton hlast.newline_not_mem)
  | l :: lines, h => by
    have hl := h l List.mem_cons_self
    have hlines : ∀ l' ∈ lines, IsLine l' := fun l' hl' => h l' (List.mem_cons_of_mem l hl')
    have ih := splitOn_collapse hlast hlines
    obtain ⟨c, text, htext, hc⟩ := exists_cons_written hlast hlines
    rw [htext] at ih
    rw [List.flatMap_cons, List.append_assoc, List.append_assoc, htext, collapse_append hl.no_break,
      List.singleton_append, collapse_newline hc, List.splitOn_append_cons_self_of_not_mem hl.newline_not_mem, ih,
      List.cons_append]

theorem trimBy_written {last : Text} (hlast : IsLine last) {lines : List Text}
    (h : ∀ l ∈ lines, IsLine l) :
    trimBy isBreak ((lines ++ [last]).flatMap (· ++ ['\n'])) =
      lines.flatMap (· ++ ['\n']) ++ last := by
  have hwritten : (lines ++ [last]).flatMap (· ++ ['\n']) =
      (lines.flatMap (· ++ ['\n']) ++ last) ++ ['\n'] := by simp
  obtain ⟨c, text, htext, hc⟩ := exists_cons_written hlast h
  have hfront : ((c :: text) ++ ['\n']).dropWhile isBreak = (c :: text) ++ ['\n'] :=
    dropWhile_eq_self fun d hd => by cases hd; exact hc
  have hback : (c :: text).reverse.dropWhile isBreak = (c :: text).reverse := by
    refine dropWhile_eq_self fun d hd => ?_
    rw [List.head?_reverse, ← htext, List.getLast?_append] at hd
    rw [List.getLast?_eq_some_getLast hlast.ne_nil, Option.some_or] at hd
    cases hd
    exact hlast.no_break _ (List.getLast_mem hlast.ne_nil)
  rw [hwritten, htext, trimBy, hfront, List.reverse_append, List.reverse_singleton,
    List.singleton_append, List.dropWhile_cons_of_pos rfl, hback, List.reverse_reverse]

/-- Lines are the pieces of the tidy text that they are written to. -/
theorem splitOn_tidy {lines : List Text} (hne : lines ≠ []) (h : ∀ l ∈ lines, IsLine l) :
    (tidy (lines.flatMap (· ++ ['\n']))).splitOn '\n' = lines := by
  obtain ⟨first, last, rfl⟩ : ∃ first last, lines = first ++ [last] :=
    ⟨_, _, (List.dropLast_concat_getLast hne).symm⟩
  have hlast : IsLine last := h last (by simp)
  have hfirst : ∀ l ∈ first, IsLine l := fun l hl => h l (List.mem_append_left _ hl)
  rw [tidy, trimBy_written hlast hfirst, splitOn_collapse hlast hfirst]

end Shorthand.Text.Lines
