import Shorthand.Text.Numbering

/-! # Texts that operations leave alone or take apart

A text with no white space at its ends is trimmed already, a text without counters has none to number,
and what stands before the first separator holds none. -/

namespace Shorthand.Text

theorem dropWhile_eq_self {drop : Char → Bool} {text : Text} (h : ∀ c ∈ text.head?, drop c = false) :
    text.dropWhile drop = text := by
  cases text with
  | nil => rfl
  | cons c text => rw [List.dropWhile_cons_of_neg (by rw [h c rfl]; exact nofun)]

/-- A text is cut where the characters that are taken end. -/
theorem takeWhile_append_dropWhile {take : Char → Bool} {u v : Text} (hu : ∀ c ∈ u, take c = true)
    (hv : ∀ c ∈ v.head?, take c = false) :
    (u ++ v).takeWhile take = u ∧ (u ++ v).dropWhile take = v := by
  have hstop : v.takeWhile take = [] := by
    cases v with
    | nil => rfl
    | cons c v => rw [List.takeWhile_cons_of_neg (by rw [hv c rfl]; exact nofun)]
  rw [List.takeWhile_append_of_pos hu, List.dropWhile_append_of_pos hu, hstop, List.append_nil,
    dropWhile_eq_self hv]
  exact ⟨rfl, rfl⟩

theorem takeWhile_ne_append {d : Char} {u : Text} (h : d ∉ u) (v : Text) :
    (u ++ d :: v).takeWhile (· ≠ d) = u ∧ (u ++ d :: v).dropWhile (· ≠ d) = d :: v :=
  takeWhile_append_dropWhile (fun _ hc => decide_eq_true fun he => h (he ▸ hc))
    fun c hc => by cases hc; exact decide_eq_false fun hne => hne rfl

/-- A text with no white space at its ends is left as it is. -/
theorem trim_eq_self {text : Text} (hhead : ∀ c ∈ text.head?, Unicode.isBlank c = false)
    (hlast : ∀ c ∈ text.getLast?, Unicode.isBlank c = false) : trim text = text := by
  rw [trim, trimBy, dropWhile_eq_self hhead, dropWhile_eq_self (by rwa [List.head?_reverse]),
    List.reverse_reverse]

/-- A text without the separator stands before it. -/
theorem splitOnce?_append {separator : Char} {before : Text} (h : separator ∉ before) (after : Text) :
    splitOnce? separator (before ++ separator :: after) = some (before, after) := by
  obtain ⟨htake, hdrop⟩ := takeWhile_ne_append h after
  rw [splitOnce?, hdrop]
  exact congrArg (fun b => some (b, after)) htake

theorem splitOnce?_eq_none {separator : Char} {text : Text} (h : separator ∉ text) :
    splitOnce? separator text = none := by
  have hall : ∀ c ∈ text, decide (c ≠ separator) = true :=
    fun c hc => decide_eq_true fun he => h (he ▸ hc)
  have hdrop := (takeWhile_append_dropWhile (v := []) hall nofun).2
  rw [List.append_nil] at hdrop
  rw [splitOnce?, hdrop]

/-- A separator in front opens a new piece, any other character belongs to the first one. -/
theorem splitOn_cons {separator c : Char} {text p : Text} {ps : List Text}
    (h : text.splitOn separator = p :: ps) : (c :: text).splitOn separator =
      if c = separator then [] :: p :: ps else (c :: p) :: ps := by
  rw [List.splitOn_cons_eq_if_modifyHead, h]
  simp only [beq_iff_eq, List.modifyHead_cons]

/-! ## Runs of a character -/

theorem runs_cons (q c : Char) (s : Text) : runs q (c :: s) =
    if c = q then ((runs q s).1 + 1, max (runs q s).2 ((runs q s).1 + 1)) else (0, (runs q s).2) := rfl

theorem runs_le (q : Char) (s : Text) : (runs q s).1 ≤ (runs q s).2 := by
  cases s with
  | nil => exact Nat.le_refl 0
  | cons c s =>
    rw [runs_cons]
    split
    · exact Nat.le_max_right _ _
    · exact Nat.zero_le _

/-- A run in front is not longer than the longest one. -/
theorem le_longestRun (q : Char) (n : Nat) (s : Text) : n ≤ longestRun q (List.replicate n q ++ s) := by
  have hfront : (runs q (List.replicate n q ++ s)).1 = (runs q s).1 + n := by
    induction n with
    | zero => rfl
    | succ n ih => rw [List.replicate_succ, List.cons_append, runs_cons, if_pos rfl, ih, Nat.add_assoc]
  have hle := runs_le q (List.replicate n q ++ s)
  rw [longestRun]
  omega

theorem longestRun_eq_zero_iff {q : Char} {s : Text} : longestRun q s = 0 ↔ q ∉ s := by
  induction s with
  | nil => simp [longestRun, runs]
  | cons c s ih =>
    rw [longestRun, runs_cons]
    by_cases hc : c = q
    · simp [hc]
    · simp only [if_neg hc, List.mem_cons, not_or]
      exact ⟨fun h => ⟨Ne.symm hc, ih.1 h⟩, fun h => ih.2 h.2⟩

/-- A text without counters is the same in every copy. -/
theorem number_eq_self (index : Nat) {text : Text} (h : '$' ∉ text) :
    Numbering.number index text = text := by
  have hfold : text.foldr (Numbering.Progress.cons (index + 1)) ⟨0, []⟩ = ⟨0, text⟩ := by
    induction text with
    | nil => rfl
    | cons c text ih =>
      obtain ⟨hc, htext⟩ := not_or.1 (mt List.mem_cons.2 h)
      rw [List.foldr_cons, ih htext, Numbering.Progress.cons, if_neg (Ne.symm hc)]
      rfl
  rw [Numbering.number, hfold]
  rfl

/-- What each piece is written from is read back piece by piece. -/
theorem filterMap_map_eq_self {α : Type} {write : α → Text} {read : Text → Option α} :
    ∀ {as : List α}, (∀ a ∈ as, read (write a) = some a) → (as.map write).filterMap read = as
  | [], _ => rfl
  | a :: as, h => by
    rw [List.map_cons, List.filterMap_cons_some (h a List.mem_cons_self),
      filterMap_map_eq_self fun b hb => h b (List.mem_cons_of_mem a hb)]

end Shorthand.Text
