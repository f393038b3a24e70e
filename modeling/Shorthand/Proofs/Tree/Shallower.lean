import Shorthand.Proofs.Tree

/-! # Forests that part by depth

Two forests with the same labels in preorder differ only in how deep these are. At the first difference
one of them has a node below and the other has nothing left there. Expansion keeps this difference when
every node is copied at least once. -/

namespace Shorthand.Tree

variable {α : Type}

/-- Where the two forests part, the first one has ended and the second one has not. -/
inductive Shallower : List (Tree α) → List (Tree α) → Prop
  | nil {u : Tree α} {us : List (Tree α)} : Shallower [] (u :: us)
  | inside {label : α} {below below' ts us : List (Tree α)} : Shallower below below' →
      Shallower (.node label below :: ts) (.node label below' :: us)
  | after {t : Tree α} {ts us : List (Tree α)} : Shallower ts us → Shallower (t :: ts) (t :: us)

/-! ## Rows -/

/-- Forests whose labels agree as far as both go are equal, or one of them is shallower. -/
theorem eq_or_shallower (depth : Nat) : ∀ (ts us : List (Tree α)) {ls ms : List α},
    (rowsAll depth ts).map (·.2) ++ ls = (rowsAll depth us).map (·.2) ++ ms →
      ts = us ∨ Shallower ts us ∨ Shallower us ts
  | [], [], _, _, _ => .inl rfl
  | [], _ :: _, _, _, _ => .inr (.inl .nil)
  | _ :: _, [], _, _, _ => .inr (.inr .nil)
  | .node label below :: ts, .node label' below' :: us, ls, ms, h => by
    simp only [rowsAll, rows, List.map_cons, List.map_append, List.cons_append, List.append_assoc] at h
    obtain ⟨rfl, hbelow⟩ := List.cons.inj h
    rcases eq_or_shallower (depth + 1) below below' hbelow with rfl | hs | hs
    · rcases eq_or_shallower depth ts us (List.append_cancel_left hbelow) with rfl | hs | hs
      · exact .inl rfl
      · exact .inr (.inl hs.after)
      · exact .inr (.inr hs.after)
    · exact .inr (.inl hs.inside)
    · exact .inr (.inr hs.inside)

/-- In front of the row where the two forests part they have the same rows. There the shallower one has
no more rows or one of smaller depth. -/
theorem Shallower.exists_row {ts us : List (Tree α)} (h : Shallower ts us) : ∀ depth : Nat,
    ∃ p r rs ss, rowsAll depth us = p ++ r :: rs ∧ rowsAll depth ts = p ++ ss ∧ depth ≤ r.1 ∧
      ∀ s ∈ ss.head?, s.1 < r.1 := by
  induction h with
  | @nil u us =>
    intro depth
    obtain ⟨label, below⟩ := u
    exact ⟨[], (depth, label), _, [], rfl, rfl, Nat.le_refl depth, nofun⟩
  | @inside label below below' ts us _ ih =>
    intro depth
    obtain ⟨p, r, rs, ss, hus, hts, hle, hhead⟩ := ih (depth + 1)
    refine ⟨(depth, label) :: p, r, rs ++ rowsAll depth us, ss ++ rowsAll depth ts, ?_, ?_, by omega, ?_⟩
    · rw [rowsAll, rows, hus, List.cons_append, List.append_assoc, List.cons_append, List.cons_append]
    · rw [rowsAll, rows, hts, List.cons_append, List.append_assoc, List.cons_append]
    · cases ss with
      | cons s ss => exact hhead
      | nil =>
        -- nothing is left below this node, so what comes next stands beside it
        cases ts with
        | nil => exact nofun
        | cons t ts =>
          obtain ⟨label, below⟩ := t
          rintro s ⟨⟩
          exact hle
  | @after t ts us _ ih =>
    intro depth
    obtain ⟨p, r, rs, ss, hus, hts, hle, hhead⟩ := ih depth
    refine ⟨rows depth t ++ p, r, rs, ss, ?_, ?_, hle, hhead⟩
    · rw [rowsAll, hus, List.append_assoc]
    · rw [rowsAll, hts, List.append_assoc]

/-- A forest whose nodes are nowhere deeper than the same nodes of another one is this other one or
shallower. -/
theorem eq_or_shallower_of_le {γ : Type} {depth : Nat} {ts us : List (Tree α)} {xs : List γ}
    {f g : γ → Nat} {label : γ → α} (hts : rowsAll depth ts = xs.map fun x => (f x, label x))
    (hus : rowsAll depth us = xs.map fun x => (g x, label x)) (hle : ∀ x ∈ xs, f x ≤ g x) :
    ts = us ∨ Shallower ts us := by
  have hlabels : (rowsAll depth ts).map (·.2) ++ [] = (rowsAll depth us).map (·.2) ++ [] := by
    rw [hts, hus, List.map_map, List.map_map]
    rfl
  rcases eq_or_shallower depth ts us hlabels with rfl | hs | hs
  · exact .inl rfl
  · exact .inr hs
  · -- the first row where they part would be deeper in `ts`
    exfalso
    obtain ⟨p, r, rs, ss, hrow, hrest, -, hhead⟩ := hs.exists_row depth
    rw [hts] at hrow
    obtain ⟨before, rest, rfl, rfl, hrest'⟩ := List.map_eq_append_iff.1 hrow
    obtain ⟨x, after, rfl, rfl, rfl⟩ := List.map_eq_cons_iff.1 hrest'
    rw [hus, List.map_append] at hrest
    obtain ⟨-, rfl⟩ := List.append_inj hrest (by rw [List.length_map, List.length_map])
    have hlt : g x < f x := hhead (g x, label x) rfl
    have := hle x (by simp)
    omega

/-! ## Expansion -/

theorem Shallower.append_left {ts us : List (Tree α)} (h : Shallower ts us) (vs : List (Tree α)) :
    Shallower (vs ++ ts) (vs ++ us) := by
  induction vs with
  | nil => exact h
  | cons v vs ih => exact ih.after

/-- Expansion keeps a forest shallower when every node of the deeper one is copied at least once. -/
theorem Shallower.expandAll {count : α → Nat} {ts us : List (Tree α)} (h : Shallower ts us) :
    ∀ {depth : Nat}, (∀ r ∈ rowsAll depth us, 0 < count r.2) →
      Shallower (Tree.expandAll count ts) (Tree.expandAll count us) := by
  induction h with
  | @nil u us =>
    intro depth hpos
    obtain ⟨label, below⟩ := u
    obtain ⟨n, hn⟩ := Nat.exists_eq_succ_of_ne_zero
      (Nat.pos_iff_ne_zero.1 (hpos (depth, label) List.mem_cons_self))
    rw [Tree.expandAll, Tree.expandAll, expand, hn, List.replicate_succ]
    exact .nil
  | @inside label below below' ts us _ ih =>
    intro depth hpos
    obtain ⟨n, hn⟩ := Nat.exists_eq_succ_of_ne_zero
      (Nat.pos_iff_ne_zero.1 (hpos (depth, label) List.mem_cons_self))
    have hbelow := ih fun r hr => hpos r (List.mem_cons_of_mem _ (List.mem_append_left _ hr))
    simp only [Tree.expandAll, expand, hn, List.replicate_succ, List.cons_append]
    exact hbelow.inside
  | after _ ih =>
    intro depth hpos
    rw [Tree.expandAll, Tree.expandAll]
    exact (ih fun r hr => hpos r (List.mem_append_right _ hr)).append_left _

end Shorthand.Tree
