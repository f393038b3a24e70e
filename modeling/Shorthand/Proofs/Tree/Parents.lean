import Shorthand.Proofs.Tree

/-! # Forests given by parents

Each node of a numbered sequence names its parent among the nodes before it, or none. The forest is
built from the right: a node takes below itself, in order, the later trees whose parent it is. Main
statement: when a node's parent is the last one before it that is less deep, hanging rows by their
depths gives the same forest. -/

namespace Shorthand.Tree

variable {α : Type}

/-- Puts a node in front of later trees that are listed with their numbers. -/
def plant (parent : Nat → Option Nat) (node : α × Nat) (later : List (Nat × Tree α)) :
    List (Nat × Tree α) :=
  (node.2, .node node.1 ((later.filter (parent ·.1 = some node.2)).map (·.2))) ::
    later.filter (parent ·.1 ≠ some node.2)

/-- The forest of numbered nodes in which the children of each node are, in order, the nodes whose
parent it is. -/
def ofParents (parent : Nat → Option Nat) (nodes : List (α × Nat)) : List (Tree α) :=
  (nodes.foldr (plant parent) []).map (·.2)

/-- The parent of a node is the one before it that is less deep, when no node between them is less deep
than the later one. -/
def ParentsByDepth (parent : Nat → Option Nat) (depth : Nat → Nat) (numbers : List Nat) : Prop :=
  ∀ i ∈ numbers, ∀ j ∈ numbers, i < j → (∀ m ∈ numbers, i < m → m < j → depth j ≤ depth m) →
    (parent j = some i ↔ depth i < depth j)

/-- What planting keeps: the trees are those of the hung rows, they stand in the order of their numbers,
and each one is as deep as the least deep node up to it. -/
theorem foldr_plant_spec {parent : Nat → Option Nat} {depth : Nat → Nat} :
    ∀ {nodes : List (α × Nat)}, (nodes.map (·.2)).Pairwise (· < ·) →
      ParentsByDepth parent depth (nodes.map (·.2)) →
      (nodes.map fun n => (depth n.2, n.1)).foldr hang [] =
          (nodes.foldr (plant parent) []).map (fun x => (depth x.1, x.2)) ∧
        ((nodes.foldr (plant parent) []).map (·.1)).Sublist (nodes.map (·.2)) ∧
        ∀ x ∈ nodes.foldr (plant parent) [], ∀ m ∈ nodes.map (·.2), m < x.1 → depth x.1 ≤ depth m
  | [], _, _ => ⟨rfl, .slnil, nofun⟩
  | n :: nodes, hsorted, hparents => by
    obtain ⟨hlt, hsorted⟩ := List.pairwise_cons.1 hsorted
    have hrest : ParentsByDepth parent depth (nodes.map (·.2)) := by
      intro i hi j hj hij hbetween
      refine hparents i (List.mem_cons_of_mem _ hi) j (List.mem_cons_of_mem _ hj) hij fun m hm him => ?_
      rcases List.mem_cons.1 hm with rfl | hm
      · exact absurd (hlt i hi) (Nat.lt_asymm him)
      · exact hbetween m hm him
    obtain ⟨hhang, hsub, hleast⟩ := foldr_plant_spec hsorted hrest
    rw [List.map_cons, List.foldr_cons, List.foldr_cons, hhang]
    revert hsub hleast
    generalize nodes.foldr (plant parent) [] = later
    intro hsub hleast
    have hmem : ∀ x ∈ later, x.1 ∈ nodes.map (·.2) := fun x hx =>
      hsub.subset (List.mem_map_of_mem hx)
    have hparent : ∀ x ∈ later, parent x.1 = some n.2 ↔ depth n.2 < depth x.1 := by
      intro x hx
      refine hparents n.2 List.mem_cons_self x.1 (List.mem_cons_of_mem _ (hmem x hx))
        (hlt _ (hmem x hx)) fun m hm hnm hmx => ?_
      rcases List.mem_cons.1 hm with rfl | hm
      · exact absurd hnm (Nat.lt_irrefl _)
      · exact hleast x hx m hm hmx
    have hdesc : Descending (depth ·.1) later := by
      have hpair : later.Pairwise (·.1 < ·.1) := List.pairwise_map.1 (hsorted.sublist hsub)
      refine hpair.imp_of_mem fun hx hy hxy => ?_
      exact hleast _ hy _ (hmem _ hx) hxy
    have htake : later.filter (parent ·.1 = some n.2) = later.takeWhile (depth n.2 < depth ·.1) := by
      rw [takeWhile_eq_filter hdesc]
      exact List.filter_congr fun x hx => by simp [hparent x hx]
    have hdrop : later.filter (parent ·.1 ≠ some n.2) = later.dropWhile (depth n.2 < depth ·.1) := by
      rw [dropWhile_eq_filter hdesc]
      exact List.filter_congr fun x hx => by simp [hparent x hx]
    refine ⟨?_, ?_, ?_⟩
    · rw [hang, plant, List.takeWhile_map, List.dropWhile_map, htake, hdrop]
      simp [Function.comp_def]
    · exact (List.Sublist.map _ List.filter_sublist).trans hsub |>.cons_cons n.2
    · intro x hx m hm hmx
      rcases List.mem_cons.1 hx with rfl | hx
      · rcases List.mem_cons.1 hm with rfl | hm
        · exact absurd hmx (Nat.lt_irrefl _)
        · exact absurd (hlt m hm) (Nat.lt_asymm hmx)
      · rw [hdrop, dropWhile_eq_filter hdesc, List.mem_filter] at hx
        rcases List.mem_cons.1 hm with rfl | hm
        · simpa using hx.2
        · exact hleast x hx.1 m hm hmx

/-- Parents that are given by depths lead to the forest of the hung rows. -/
theorem ofParents_eq_ofRows {parent : Nat → Option Nat} {depth : Nat → Nat} {nodes : List (α × Nat)}
    (hsorted : (nodes.map (·.2)).Pairwise (· < ·))
    (hparents : ParentsByDepth parent depth (nodes.map (·.2))) :
    ofParents parent nodes = ofRows (nodes.map fun n => (depth n.2, n.1)) := by
  rw [ofParents, ofRows, (foldr_plant_spec hsorted hparents).1]
  simp

end Shorthand.Tree
