import Shorthand.Proofs.Text

/-! # Characters of cut and numbered texts

A text that is cut, trimmed or split keeps no characters but its own; one that is numbered gets digits
beside them. -/

namespace Shorthand.Text

/-- What can be decided of characters can be decided of a text by going through it. -/
theorem forall_mem_of_all {p : Char → Prop} [DecidablePred p] {text : Text}
    (h : text.all (fun c => decide (p c)) = true) : ∀ c ∈ text, p c :=
  fun c hc => of_decide_eq_true (List.all_eq_true.1 h c hc)

theorem mem_of_mem_splitOn {separator c : Char} {piece : Text} : ∀ {text : Text},
    piece ∈ text.splitOn separator → c ∈ piece → c ∈ text
  | [], h, hc => by
    rw [List.mem_singleton.1 (show piece ∈ [[]] from h)] at hc
    cases hc
  | d :: text, h, hc => by
    obtain ⟨p, ps, hp⟩ := List.exists_cons_of_ne_nil (List.splitOn_ne_nil separator text)
    rw [splitOn_cons hp] at h
    split at h
    · rcases List.mem_cons.1 h with rfl | h
      · cases hc
      · exact List.mem_cons_of_mem d (mem_of_mem_splitOn (hp ▸ h) hc)
    · rcases List.mem_cons.1 h with rfl | h
      · rcases List.mem_cons.1 hc with rfl | hc
        · exact List.mem_cons_self
        · exact List.mem_cons_of_mem d (mem_of_mem_splitOn (hp ▸ List.mem_cons_self) hc)
      · exact List.mem_cons_of_mem d (mem_of_mem_splitOn (hp ▸ List.mem_cons_of_mem p h) hc)

/-- A character that is not the separator stands in one of the pieces. -/
theorem exists_mem_splitOn {separator c : Char} (hc : c ≠ separator) : ∀ {text : Text}, c ∈ text →
    ∃ piece ∈ text.splitOn separator, c ∈ piece
  | d :: text, h => by
    obtain ⟨p, ps, hp⟩ := List.exists_cons_of_ne_nil (List.splitOn_ne_nil separator text)
    rw [splitOn_cons hp]
    rcases List.mem_cons.1 h with rfl | h
    · rw [if_neg hc]
      exact ⟨_, List.mem_cons_self, List.mem_cons_self⟩
    · obtain ⟨piece, hpiece, hmem⟩ := exists_mem_splitOn hc h
      rw [hp] at hpiece
      split
      · exact ⟨piece, List.mem_cons_of_mem _ hpiece, hmem⟩
      · rcases List.mem_cons.1 hpiece with rfl | hpiece
        · exact ⟨_, List.mem_cons_self, List.mem_cons_of_mem d hmem⟩
        · exact ⟨piece, List.mem_cons_of_mem _ hpiece, hmem⟩

theorem not_mem_of_mem_splitOn {separator : Char} {piece : Text} : ∀ {text : Text},
    piece ∈ text.splitOn separator → separator ∉ piece
  | [], h => by
    rw [List.mem_singleton.1 (show piece ∈ [[]] from h)]
    exact nofun
  | d :: text, h => by
    obtain ⟨p, ps, hp⟩ := List.exists_cons_of_ne_nil (List.splitOn_ne_nil separator text)
    rw [splitOn_cons hp] at h
    split at h
    · rcases List.mem_cons.1 h with rfl | h
      · exact nofun
      · exact not_mem_of_mem_splitOn (hp ▸ h)
    · rename_i hd
      rcases List.mem_cons.1 h with rfl | h
      · have hfirst : separator ∉ p := not_mem_of_mem_splitOn (hp ▸ List.mem_cons_self)
        exact fun hm => (List.mem_cons.1 hm).elim (fun he => hd he.symm) hfirst
      · exact not_mem_of_mem_splitOn (hp ▸ List.mem_cons_of_mem p h)

theorem mem_of_mem_trimBy {drop : Char → Bool} {text : Text} {c : Char} (h : c ∈ trimBy drop text) :
    c ∈ text := by
  have hback := (List.dropWhile_sublist drop).subset (List.mem_reverse.1 h)
  exact (List.dropWhile_sublist drop).subset (List.mem_reverse.1 hback)

theorem mem_of_splitOnce? {separator c : Char} {text before after : Text}
    (h : splitOnce? separator text = some (before, after)) :
    (c ∈ before → c ∈ text) ∧ (c ∈ after → c ∈ text) := by
  rw [splitOnce?] at h
  split at h
  · rename_i hdrop
    cases h
    refine ⟨fun hc => (List.takeWhile_sublist _).subset hc, fun hc => ?_⟩
    exact (List.dropWhile_sublist _).subset (hdrop ▸ List.mem_cons_of_mem _ hc)
  · cases h

/-! ## Numbered texts -/

section Numbered

variable {p : Char → Prop} (hdigit : ∀ c, c.isDigit = true → p c)
include hdigit

theorem forall_mem_padded (width n : Nat) : ∀ c ∈ Numbering.padded width n, p c := by
  intro c hc
  rw [Numbering.padded, List.mem_append, List.mem_replicate] at hc
  rcases hc with ⟨-, rfl⟩ | hc
  · exact hdigit '0' rfl
  · exact hdigit c (Nat.isDigit_of_mem_toDigits (by decide) (by decide) hc)

theorem forall_mem_progress_text (n : Nat) {progress : Numbering.Progress} (h : ∀ c ∈ progress.after, p c) :
    ∀ c ∈ progress.text n, p c := by
  unfold Numbering.Progress.text
  split
  · exact h
  · exact List.forall_mem_append.2 ⟨forall_mem_padded hdigit _ n, h⟩

theorem forall_mem_progress_after (n : Nat) {text : Text} (h : ∀ c ∈ text, p c) :
    ∀ c ∈ (text.foldr (Numbering.Progress.cons n) ⟨0, []⟩).after, p c := by
  induction text with
  | nil => exact nofun
  | cons d text ih =>
    obtain ⟨hd, htext⟩ := List.forall_mem_cons.1 h
    rw [List.foldr_cons, Numbering.Progress.cons]
    split
    · exact ih htext
    · exact List.forall_mem_cons.2 ⟨hd, forall_mem_progress_text hdigit n (ih htext)⟩

/-- A numbered text holds its own characters and digits. -/
theorem forall_mem_number (index : Nat) {text : Text} (h : ∀ c ∈ text, p c) :
    ∀ c ∈ Numbering.number index text, p c :=
  forall_mem_progress_text hdigit _ (forall_mem_progress_after hdigit _ h)

end Numbered

end Shorthand.Text
