import Shorthand.Unicode.Lowercase

/-! # Lower case stays as it is

No run of capitals holds a code point that a run maps to. So the lower case of a character is mapped to
itself, and lower-casing a text a second time changes nothing, whatever context decides about sigmas. -/

namespace Shorthand.Unicode

namespace CaseRun

/-- The code point is one of the capitals of the run. -/
def Holds (run : CaseRun) (n : Nat) : Prop :=
  run.first ≤ n ∧ n ≤ run.last ∧ (n - run.first) % run.stride = 0

/-- The largest code point that the run maps to. -/
def lastTarget (run : CaseRun) : Nat := run.target + (run.last - run.first)

/-- No code point that the run maps to is even where the capitals of the other are even, or odd where
they are odd. -/
def interleaves (run other : CaseRun) : Bool :=
  other.stride == 2 && ((run.stride == 2 || run.first == run.last) &&
    run.target % 2 != other.first % 2)

/-- The code points that the run maps to are found in none of the runs. The runs are searched like a table:
those behind the first one that is too high do not matter. -/
def clearOf (run : CaseRun) : List CaseRun → Bool
  | [] => true
  | other :: runs =>
    Nat.blt run.lastTarget other.first ||
      ((Nat.blt other.last run.target || run.interleaves other) && run.clearOf runs)

end CaseRun

theorem exists_holds_of_mapByRuns_ne {runs : List CaseRun} {n : Nat} (h : mapByRuns runs n ≠ n) :
    ∃ run ∈ runs, run.Holds n ∧ mapByRuns runs n = run.target + (n - run.first) := by
  induction runs with
  | nil => exact absurd rfl h
  | cons run runs ih =>
    rw [mapByRuns] at h ⊢
    split at h
    · exact absurd rfl h
    · rename_i hfirst
      rw [if_neg hfirst]
      split at h
      · rename_i hlast
        rw [if_pos hlast]
        exact ⟨run, List.mem_cons_self, ⟨Nat.le_of_not_lt hfirst, hlast⟩, rfl⟩
      · rename_i hlast
        rw [if_neg hlast]
        obtain ⟨other, hmem, hother⟩ := ih h
        exact ⟨other, List.mem_cons_of_mem run hmem, hother⟩

/-- Where runs interleave, what one maps to is no capital of the other. -/
theorem CaseRun.interleaves_mod {run other : CaseRun} {n : Nat} (h : run.interleaves other = true)
    (hn : run.Holds n) (hle : other.first ≤ run.target + (n - run.first)) :
    (run.target + (n - run.first) - other.first) % other.stride ≠ 0 := by
  simp only [interleaves, Bool.and_eq_true, Bool.or_eq_true, beq_iff_eq, bne_iff_ne] at h
  obtain ⟨hstride, hrun, hparity⟩ := h
  obtain ⟨hfirst, hlast, hmod⟩ := hn
  have heven : (n - run.first) % 2 = 0 := by
    rcases hrun with hrun | hrun
    · rwa [hrun] at hmod
    · omega
  rw [hstride]
  omega

theorem mapByRuns_of_clearOf {run : CaseRun} {n : Nat} (hn : run.Holds n) : ∀ {runs : List CaseRun},
    run.clearOf runs = true →
      mapByRuns runs (run.target + (n - run.first)) = run.target + (n - run.first)
  | [], _ => rfl
  | other :: runs, h => by
    have hle : run.target + (n - run.first) ≤ run.lastTarget :=
      Nat.add_le_add_left (Nat.sub_le_sub_right hn.2.1 run.first) run.target
    rw [mapByRuns]
    split
    · rfl
    · rename_i hfirst
      have hfirst' := Nat.le_of_not_lt hfirst
      simp only [CaseRun.clearOf, Bool.or_eq_true, Bool.and_eq_true, Nat.blt_eq] at h
      rcases h with h | ⟨h, hruns⟩
      · exact absurd (Nat.lt_of_le_of_lt hle h) hfirst
      · rw [if_neg, mapByRuns_of_clearOf hn hruns]
        rintro ⟨hlast, hmod⟩
        rcases h with h | h
        · omega
        · exact CaseRun.interleaves_mod h hn hfirst' hmod

/-- The table maps no capital to a capital, nor to the dotted capital I. -/
theorem clearOf_caseRuns : (caseRuns.all fun run => run.clearOf caseRuns &&
    (Nat.blt 0x130 run.target || Nat.blt run.lastTarget 0x130)) = true := by
  decide +kernel

/-- Mapping twice is mapping once, and only the dotted capital I is mapped to itself. -/
theorem mapByRuns_caseRuns (n : Nat) :
    mapByRuns caseRuns (mapByRuns caseRuns n) = mapByRuns caseRuns n ∧
      (mapByRuns caseRuns n = 0x130 → n = 0x130) := by
  by_cases h : mapByRuns caseRuns n = n
  · rw [h]
    exact ⟨h, id⟩
  · obtain ⟨run, hmem, hn, heq⟩ := exists_holds_of_mapByRuns_ne h
    have hrun := List.all_eq_true.1 clearOf_caseRuns run hmem
    simp only [Bool.and_eq_true, Bool.or_eq_true, Nat.blt_eq, CaseRun.lastTarget] at hrun
    rw [heq]
    refine ⟨mapByRuns_of_clearOf hn hrun.1, fun h130 => ?_⟩
    have := hn.2.1
    omega

/-- The character is its own lower case. -/
def IsLower (c : Char) : Prop := lowercaseChar c = [c]

instance (c : Char) : Decidable (IsLower c) := inferInstanceAs (Decidable (_ = _))

/-- A number that is no code point gives the null character. -/
theorem toNat_ofNat (n : Nat) : (Char.ofNat n).toNat = n ∨ (Char.ofNat n).toNat = 0 := by
  by_cases h : n.isValidChar
  · have hvalid : Char.ofNat n = Char.ofNatAux n h := dif_pos h
    rw [hvalid]
    exact .inl rfl
  · have hinvalid : Char.ofNat n = '\x00' := dif_neg h
    rw [hinvalid]
    exact .inr rfl

theorem mapByRuns_ofNat (n : Nat) : mapByRuns caseRuns (Char.ofNat (mapByRuns caseRuns n)).toNat =
    (Char.ofNat (mapByRuns caseRuns n)).toNat := by
  rcases toNat_ofNat (mapByRuns caseRuns n) with h | h
  · rw [h, (mapByRuns_caseRuns n).1]
  · rw [h]
    rfl

theorem isLower_of_mem_lowercaseChar {c d : Char} (h : d ∈ lowercaseChar c) : IsLower d := by
  unfold lowercaseChar at h
  split at h
  · simp only [List.mem_cons, List.not_mem_nil, or_false] at h
    rcases h with rfl | rfl <;> decide
  · rename_i hc
    rw [List.mem_singleton] at h
    have hd : d ≠ '\u0130' := by
      rintro rfl
      rcases toNat_ofNat (mapByRuns caseRuns c.toNat) with hcode | hcode
      · rw [← h] at hcode
        exact hc (Char.toNat_inj.1 ((mapByRuns_caseRuns c.toNat).2 hcode.symm))
      · rw [← h] at hcode
        exact absurd hcode (by decide)
    rw [IsLower, lowercaseChar, if_neg hd, h, mapByRuns_ofNat, Char.ofNat_toNat]

theorem IsLower.ne_sigma {c : Char} (h : IsLower c) : c ≠ 'Σ' := by
  rintro rfl
  exact absurd h (by decide)

theorem isLower_of_mem_lowercaseAfter : ∀ {text : List Char} {afterCased : Bool} {c : Char},
    c ∈ lowercaseAfter afterCased text → IsLower c
  | [], _, _, h => nomatch h
  | d :: text, afterCased, c, h => by
    rw [lowercaseAfter] at h
    rcases List.mem_append.1 h with h | h
    · split at h
      · rw [List.mem_singleton] at h
        split at h <;> (subst h; decide)
      · exact isLower_of_mem_lowercaseChar h
    · exact isLower_of_mem_lowercaseAfter h

theorem lowercaseAfter_eq_self : ∀ {text : List Char} {afterCased : Bool},
    (∀ c ∈ text, IsLower c) → lowercaseAfter afterCased text = text
  | [], _, _ => rfl
  | c :: text, _, h => by
    have hc := h c List.mem_cons_self
    rw [lowercaseAfter, if_neg hc.ne_sigma, hc,
      lowercaseAfter_eq_self fun d hd => h d (List.mem_cons_of_mem c hd), List.singleton_append]

theorem isLower_of_letter {c : Char} (h : c.isLower = true) : IsLower c := by
  have hcode : 0x61 ≤ c.toNat ∧ c.toNat ≤ 0x7A := by
    obtain ⟨hfirst, hlast⟩ := Bool.and_eq_true_iff.1 h
    exact ⟨of_decide_eq_true hfirst, of_decide_eq_true hlast⟩
  have hdotted : c ≠ '\u0130' := by
    rintro rfl
    exact absurd hcode.2 (by decide)
  have hsame : mapByRuns caseRuns c.toNat = c.toNat := by
    have hfirst : ¬ c.toNat < 0x41 := by omega
    have hlast : ¬ (c.toNat ≤ 0x5A ∧ (c.toNat - 0x41) % 1 = 0) := by omega
    have hnext : c.toNat < 0xC0 := by omega
    rw [caseRuns, mapByRuns, mapByRuns]
    exact (if_neg hfirst).trans ((if_neg hlast).trans (if_pos hnext))
  rw [IsLower, lowercaseChar, if_neg hdotted, hsame, Char.ofNat_toNat]

/-- Small letters are left as they are. -/
theorem lowercase_of_letters {text : List Char} (h : ∀ c ∈ text, c.isLower = true) :
    lowercase text = text :=
  lowercaseAfter_eq_self fun c hc => isLower_of_letter (h c hc)

/-- **Lower-casing twice is lower-casing once.** -/
@[simp] theorem lowercase_lowercase (text : List Char) : lowercase (lowercase text) = lowercase text :=
  lowercaseAfter_eq_self fun _ h => isLower_of_mem_lowercaseAfter h

end Shorthand.Unicode
