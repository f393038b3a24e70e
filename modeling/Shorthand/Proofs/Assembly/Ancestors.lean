/-! # Ancestors in a sequence of depths

A sequence of depths that begins at 0 and never steps down more than one level gives each position a
chain of ancestors: the last earlier position of depth one less, from there again the last earlier one
of depth one less, and so on. Main statement: `i` is an ancestor of `j` exactly when everything after
`i` up to `j` is deeper than `i`. -/

namespace Shorthand.Nesting

/-- The last position of depth one less than the given one among those below the bound. -/
def lastAbove (depth : Nat → Nat) (d : Nat) : Nat → Option Nat
  | 0 => none
  | i + 1 => if depth i + 1 = d then some i else lastAbove depth d i

/-- The last earlier position of depth one less; none for depth 0. -/
def parent (depth : Nat → Nat) (i : Nat) : Option Nat := lastAbove depth (depth i) i

/-- The ancestors of a position of the given depth, the nearest first, looked for among the positions
below the second argument. -/
def chain (depth : Nat → Nat) (d : Nat) : Nat → List Nat
  | 0 => []
  | i + 1 => if depth i + 1 = d then i :: chain depth (depth i) i else chain depth d i

def ancestors (depth : Nat → Nat) (i : Nat) : List Nat := chain depth (depth i) i

/-- The depths begin at 0 and never step down more than one level. -/
structure Gradual (depth : Nat → Nat) : Prop where
  zero : depth 0 = 0
  step : ∀ i, depth (i + 1) ≤ depth i + 1

theorem chain_eq (depth : Nat → Nat) : ∀ d i : Nat,
    chain depth d i = (lastAbove depth d i).elim [] fun p => p :: ancestors depth p
  | _, 0 => rfl
  | d, i + 1 => by
    rw [chain, lastAbove]
    split
    · rfl
    · exact chain_eq depth d i

/-- The ancestors are the parent, its parent, and so on. -/
theorem ancestors_eq (depth : Nat → Nat) (i : Nat) :
    ancestors depth i = (parent depth i).elim [] fun p => p :: ancestors depth p :=
  chain_eq depth (depth i) i

theorem head?_ancestors (depth : Nat → Nat) (i : Nat) :
    (ancestors depth i).head? = parent depth i := by
  rw [ancestors_eq]
  cases parent depth i <;> rfl

theorem lt_of_mem_chain {depth : Nat → Nat} {h : Nat} :
    ∀ {d i : Nat}, h ∈ chain depth d i → h < i
  | _, 0, hm => nomatch hm
  | d, i + 1, hm => by
    rw [chain] at hm
    split at hm
    · rcases List.mem_cons.1 hm with rfl | hm
      · exact Nat.lt_succ_self _
      · exact Nat.lt_succ_of_lt (lt_of_mem_chain hm)
    · exact Nat.lt_succ_of_lt (lt_of_mem_chain hm)

/-- Behind an ancestor in a chain stand its own ancestors. -/
theorem exists_chain_eq_append {depth : Nat → Nat} {h : Nat} :
    ∀ {d i : Nat}, h ∈ chain depth d i → ∃ before, chain depth d i = before ++ h :: ancestors depth h
  | _, 0, hm => nomatch hm
  | d, i + 1, hm => by
    rw [chain] at hm ⊢
    split at hm
    · rename_i hd
      rw [if_pos hd]
      rcases List.mem_cons.1 hm with rfl | hm
      · exact ⟨[], rfl⟩
      · obtain ⟨before, hb⟩ := exists_chain_eq_append hm
        exact ⟨i :: before, by rw [hb, List.cons_append]⟩
    · rename_i hd
      rw [if_neg hd]
      exact exists_chain_eq_append hm

section Gradual

variable {depth : Nat → Nat} (hn : Gradual depth)
include hn

theorem mem_chain_iff {h : Nat} : ∀ {d i : Nat}, (∀ j, i = j + 1 → d ≤ depth j + 1) →
    (h ∈ chain depth d i ↔ h < i ∧ depth h < d ∧ ∀ m, h < m → m < i → depth h < depth m)
  | _, 0, _ => by simp [chain]
  | d, i + 1, hd => by
    have hle : d ≤ depth i + 1 := hd i rfl
    have hi : ∀ j, i = j + 1 → depth i ≤ depth j + 1 := fun j hj => hj ▸ hn.step j
    rw [chain]
    split
    · rename_i heq
      rw [List.mem_cons, mem_chain_iff hi]
      constructor
      · rintro (rfl | ⟨hlt, hdepth, hbetween⟩)
        · exact ⟨Nat.lt_succ_self h, by omega, fun m h₁ h₂ => by omega⟩
        · refine ⟨Nat.lt_succ_of_lt hlt, by omega, fun m h₁ h₂ => ?_⟩
          rcases Nat.lt_succ_iff_lt_or_eq.1 h₂ with h₂ | rfl
          · exact hbetween m h₁ h₂
          · exact hdepth
      · rintro ⟨hlt, -, hbetween⟩
        rcases Nat.lt_succ_iff_lt_or_eq.1 hlt with hlt | rfl
        · exact .inr ⟨hlt, hbetween i hlt (Nat.lt_succ_self i),
            fun m h₁ h₂ => hbetween m h₁ (Nat.lt_succ_of_lt h₂)⟩
        · exact .inl rfl
    · rename_i hne
      have hd' : ∀ j, i = j + 1 → d ≤ depth j + 1 := fun j hj => by
        have := hi j hj
        omega
      rw [mem_chain_iff hd']
      constructor
      · rintro ⟨hlt, hdepth, hbetween⟩
        refine ⟨Nat.lt_succ_of_lt hlt, hdepth, fun m h₁ h₂ => ?_⟩
        rcases Nat.lt_succ_iff_lt_or_eq.1 h₂ with h₂ | rfl
        · exact hbetween m h₁ h₂
        · omega
      · rintro ⟨hlt, hdepth, hbetween⟩
        rcases Nat.lt_succ_iff_lt_or_eq.1 hlt with hlt | rfl
        · exact ⟨hlt, hdepth, fun m h₁ h₂ => hbetween m h₁ (Nat.lt_succ_of_lt h₂)⟩
        · omega

/-- An ancestor is less deep than everything after it up to its descendant. -/
theorem mem_ancestors_iff {h j : Nat} :
    h ∈ ancestors depth j ↔ h < j ∧ ∀ m, h < m → m ≤ j → depth h < depth m := by
  rw [ancestors, mem_chain_iff hn fun i hi => hi ▸ hn.step i]
  constructor
  · rintro ⟨hlt, hdepth, hbetween⟩
    refine ⟨hlt, fun m h₁ h₂ => ?_⟩
    rcases Nat.lt_or_eq_of_le h₂ with h₂ | rfl
    · exact hbetween m h₁ h₂
    · exact hdepth
  · rintro ⟨hlt, hbetween⟩
    exact ⟨hlt, hbetween j hlt (Nat.le_refl j), fun m h₁ h₂ => hbetween m h₁ (Nat.le_of_lt h₂)⟩

/-- What stands between a node and its ancestor has that ancestor too. -/
theorem mem_ancestors_between {h i j : Nat} (hj : h ∈ ancestors depth j) (hi : h < i) (hij : i ≤ j) :
    h ∈ ancestors depth i := by
  rw [mem_ancestors_iff hn] at hj ⊢
  exact ⟨hi, fun m h₁ h₂ => hj.2 m h₁ (Nat.le_trans h₂ hij)⟩

theorem length_chain : ∀ {d i : Nat}, (∀ j, i = j + 1 → d ≤ depth j + 1) → (i = 0 → d = 0) →
    (chain depth d i).length = d
  | _, 0, _, h₀ => (h₀ rfl).symm
  | d, i + 1, hd, _ => by
    have hle : d ≤ depth i + 1 := hd i rfl
    have hi : ∀ j, i = j + 1 → depth i ≤ depth j + 1 := fun j hj => hj ▸ hn.step j
    have hzero : i = 0 → depth i = 0 := fun h => h ▸ hn.zero
    rw [chain]
    split
    · rename_i heq
      rw [List.length_cons, length_chain hi hzero]
      exact heq
    · refine length_chain (fun j hj => ?_) fun h => ?_
      · have := hi j hj
        omega
      · have := hzero h
        omega

/-- A node is as deep as it has ancestors. -/
theorem length_ancestors (i : Nat) : (ancestors depth i).length = depth i :=
  length_chain hn (fun j hj => hj ▸ hn.step j) fun h => h ▸ hn.zero

end Gradual

end Shorthand.Nesting
