import Shorthand.Proofs.Assembly.Terms

/-! # The assembled forest is the forest of parents

Main statements: when all terms have names the assembled forest is the nesting of the terms, every node
replaced by its copies; and terms without names are transparent exactly when each named term has only
named ancestors or hangs under the last named term before it. -/

namespace Shorthand.Nesting
open Shorthand.Tree (Shallower StampedAll expandAll mapAll rowsAll sizeAll)

/-- The path of the last named term leads every named term to the nearest named one of its ancestors. -/
def HostsOnPath (terms : List Term) : Prop :=
  ∀ i < terms.length, isNamed terms i = true →
    (∀ j ∈ ancestors (depthOf terms) i, isNamed terms j = true) ∨
      host (depthOf terms) (isNamed terms) i = lastMarked (isNamed terms) i

instance (terms : List Term) : Decidable (HostsOnPath terms) := by
  unfold HostsOnPath
  infer_instance

theorem lt_length_of_isNamed {terms : List Term} {i : Nat} (h : isNamed terms i = true) :
    i < terms.length := by
  refine Nat.lt_of_not_le fun hle => ?_
  rw [isNamed, List.getElem?_eq_none hle] at h
  cases h

theorem forall_pathRank_iff_hostsOnPath (terms : List Term) :
    (∀ x ∈ named terms, pathRank (depthOf terms) (isNamed terms) x.2 =
        rank (depthOf terms) (isNamed terms) x.2) ↔ HostsOnPath terms := by
  refine Iff.trans ?_ (forall_pathRank_eq_rank_iff (gradual_depthOf terms) terms.length)
  constructor
  · intro hall i _ hi
    obtain ⟨x, hx, rfl⟩ := List.mem_map.1 (mem_map_named_iff.2 hi)
    exact hall x hx
  · intro hall x hx
    have hm := (mem_named_iff.1 hx).2
    exact hall x.2 (lt_length_of_isNamed hm) hm

/-- The plan is a given forest of terms when the rows agree. -/
theorem trees_ofTerms_eq_iff (terms : List Term) (ts : List (Tree Term)) :
    Template.trees (Assembly.ofTerms terms).templates = mapAll Term.sketch ts ↔
      ((named terms).map fun x => (pathRank (depthOf terms) (isNamed terms) x.2, x.1.sketch)) =
        (rowsAll 0 ts).map fun r => (r.1, r.2.sketch) := by
  rw [← rowsAll_trees_ofTerms, ← Tree.rowsAll_mapAll]
  exact ⟨fun h => by rw [h], Tree.rowsAll_injective 0⟩

theorem trees_eq_transparentForest_iff (terms : List Term) :
    Template.trees (Assembly.ofTerms terms).templates =
      mapAll Term.sketch (transparentForest terms) ↔ HostsOnPath terms := by
  rw [trees_ofTerms_eq_iff, rowsAll_transparentForest, ← forall_pathRank_iff_hostsOnPath,
    List.map_map, List.map_inj_left]
  exact forall₂_congr fun x _ => by simp

/-- Terms that all have names are assembled to their nesting. -/
theorem trees_eq_nestingForest {terms : List Term} (hnames : ∀ t ∈ terms, t.name ≠ []) :
    Template.trees (Assembly.ofTerms terms).templates =
      mapAll Term.sketch (nestingForest terms) := by
  have hn := gradual_depthOf terms
  have hnamed : named terms = terms.zipIdx := List.filter_eq_self.2 fun x hx => by
    simpa using hnames x.1 (List.fst_mem_of_mem_zipIdx hx)
  have hmarked : ∀ i < terms.length, isNamed terms i = true := fun i hi => by
    rw [isNamed_of_getElem? (List.getElem?_eq_getElem hi)]
    simpa using hnames _ (List.getElem_mem hi)
  have hall : ∀ i < terms.length, ∀ j ∈ ancestors (depthOf terms) i, isNamed terms j = true :=
    fun i hi j hj => hmarked j (Nat.lt_trans (lt_of_mem_ancestors hj) hi)
  rw [trees_ofTerms_eq_iff, rowsAll_nestingForest, hnamed, List.map_map]
  refine List.map_congr_left fun x hx => ?_
  have hx : x.2 < terms.length := by
    have := List.snd_lt_of_mem_zipIdx hx
    omega
  have hpath := (forall_pathRank_eq_rank_iff hn terms.length).2 (fun i hi _ => .inl (hall i hi)) x.2 hx
    (hmarked _ hx)
  rw [hpath, (rank_eq_depth_iff hn).2 (hall x.2 hx)]
  rfl

theorem stampedAll_expandAll_sketch {ts : List (Tree Term)} {forest : List Element} :
    StampedAll (·.1.tag) (expandAll (·.2) (mapAll Term.sketch ts)) forest ↔
      StampedAll Term.name (expandAll Term.count ts) forest := by
  rw [Tree.expandAll_mapAll, Tree.stampedAll_mapAll]
  simp only [Term.tag_sketch]
  rfl

/-- A plan that is a forest of terms is made into a forest of the same shape. -/
theorem forest_of_trees_eq {a : Assembly} {ts : List (Tree Term)} {limit : Nat}
    (h : Template.trees a.templates = mapAll Term.sketch ts)
    (hlimit : sizeAll (expandAll Term.count ts) ≤ limit) :
    ∃ forest, StampedAll Term.name (expandAll Term.count ts) forest ∧
      a.forest limit = if a.Paddable then .ok forest else .aborted := by
  have hsize : sizeAll (expandAll (·.2) (Template.trees a.templates)) ≤ limit := by
    rw [h, Tree.expandAll_mapAll, Tree.sizeAll_mapAll]
    exact hlimit
  have hstamped := Template.stampedAll_copiesAll a.templates none
  rw [h] at hstamped
  exact ⟨_, stampedAll_expandAll_sketch.1 hstamped, a.forest_eq_of_size_le hsize⟩

/-- When each named term is to be produced at least once, a forest that is made is the transparent one
exactly when its plan is. -/
theorem stampedAll_transparentForest_iff {terms : List Term} {limit : Nat} {forest : List Element}
    (hcounts : ∀ t ∈ terms, t.name ≠ [] → 0 < t.count)
    (hforest : (Assembly.ofTerms terms).forest limit = .ok forest) :
    StampedAll Term.name (expandAll Term.count (transparentForest terms)) forest ↔
      HostsOnPath terms := by
  have hplan := Assembly.stampedAll_of_forest_eq_ok hforest
  have hrows : rowsAll 0 (mapAll Term.sketch (transparentForest terms)) =
      (named terms).map fun x => (rank (depthOf terms) (isNamed terms) x.2, x.1.sketch) := by
    rw [Tree.rowsAll_mapAll, rowsAll_transparentForest, List.map_map]
    rfl
  have hpos : ∀ r ∈ rowsAll 0 (Template.trees (Assembly.ofTerms terms).templates), 0 < r.2.2 := by
    rw [rowsAll_trees_ofTerms]
    intro r hr
    obtain ⟨x, hx, rfl⟩ := List.mem_map.1 hr
    obtain ⟨ht, hm⟩ := mem_named_iff.1 hx
    rw [isNamed_of_getElem? ht] at hm
    exact hcounts x.1 (List.mem_of_getElem? ht) (by simpa using hm)
  rw [← stampedAll_expandAll_sketch, ← trees_eq_transparentForest_iff]
  constructor
  · intro hstamped
    rcases Tree.eq_or_shallower_of_le hrows (rowsAll_trees_ofTerms terms)
      fun x _ => rank_le_pathRank (gradual_depthOf terms) x.2 with heq | hs
    · exact heq.symm
    · exact absurd hplan ((hs.expandAll hpos).not_stampedAll hstamped)
  · intro heq
    rw [← heq]
    exact hplan

/-- **Named terms nest by depth**: the assembled forest has the shape of the forest in which each term
hangs under the last earlier one of depth one less, every node replaced in place by its copies. It is made
unless a counter is too wide. -/
theorem forest_of_named_terms (terms : List Term) (limit : Nat) (hnames : ∀ t ∈ terms, t.name ≠ [])
    (hlimit : sizeAll (expandAll Term.count (nestingForest terms)) ≤ limit) :
    ∃ forest, StampedAll Term.name (expandAll Term.count (nestingForest terms)) forest ∧
      (Assembly.ofTerms terms).forest limit =
        if (Assembly.ofTerms terms).Paddable then .ok forest else .aborted :=
  forest_of_trees_eq (trees_eq_nestingForest hnames) hlimit

/-- The terms of `a>b*2>c^d*0`. -/
def climbing : List Term :=
  [{ name := "a".toList }, { operator := .child, name := "b".toList, count := 2 },
    { operator := .child, name := "c".toList }, { operator := .climb 1, name := "d".toList, count := 0 }]

theorem forest_of_climbing : (∀ t ∈ climbing, t.name ≠ []) ∧
    sizeAll (expandAll Term.count (nestingForest climbing)) ≤ 5 ∧
    ∃ forest, (Assembly.ofTerms climbing).forest 5 = .ok forest ∧
      StampedAll Term.name (expandAll Term.count (nestingForest climbing)) forest := by
  obtain ⟨forest, hstamped, hforest⟩ := forest_of_named_terms climbing 5 (by decide) (by decide)
  rw [if_pos (by decide)] at hforest
  exact ⟨by decide, by decide, forest, hforest, hstamped⟩

/-- **Nameless terms are transparent exactly when** each named term has only named ancestors or hangs
under the last named term before it. The assembled forest then has the shape of the forest in which each
named term hangs under the nearest named one of its ancestors, and is made unless a counter is too wide;
otherwise it does not have this shape, unless some named term is not produced at all. -/
theorem nameless_transparent_iff (terms : List Term) :
    (Template.trees (Assembly.ofTerms terms).templates =
      mapAll Term.sketch (transparentForest terms) ↔ HostsOnPath terms) ∧
    (HostsOnPath terms → ∀ limit, sizeAll (expandAll Term.count (transparentForest terms)) ≤ limit →
      ∃ forest, StampedAll Term.name (expandAll Term.count (transparentForest terms)) forest ∧
        (Assembly.ofTerms terms).forest limit =
          if (Assembly.ofTerms terms).Paddable then .ok forest else .aborted) ∧
    ((∀ t ∈ terms, t.name ≠ [] → 0 < t.count) → ∀ limit forest,
      (Assembly.ofTerms terms).forest limit = .ok forest →
        (StampedAll Term.name (expandAll Term.count (transparentForest terms)) forest ↔
          HostsOnPath terms)) :=
  ⟨trees_eq_transparentForest_iff terms,
    fun h _ => forest_of_trees_eq ((trees_eq_transparentForest_iff terms).2 h),
    fun hcounts _ _ => stampedAll_transparentForest_iff hcounts⟩

/-- The terms of `div>.x>span`. -/
def skipping : List Term :=
  [{ name := "div".toList }, { operator := .child, modifiers := [.className "x".toList] },
    { operator := .child, name := "span".toList }]

theorem skipping_transparent : HostsOnPath skipping ∧ (∀ t ∈ skipping, t.name ≠ [] → 0 < t.count) ∧
    sizeAll (expandAll Term.count (transparentForest skipping)) ≤ 2 ∧
    (∃ forest, (Assembly.ofTerms skipping).forest 2 = .ok forest ∧
      StampedAll Term.name (expandAll Term.count (transparentForest skipping)) forest) ∧
    StampedAll Term.name (expandAll Term.count (transparentForest skipping))
      [{ tag := "div".toList, children := [{ tag := "span".toList }] }] := by
  obtain ⟨forest, hstamped, hforest⟩ := (nameless_transparent_iff skipping).2.1 (by decide) 2 (by decide)
  rw [if_pos (by decide)] at hforest
  exact ⟨by decide, by decide, by decide, ⟨forest, hforest, hstamped⟩,
    ((nameless_transparent_iff skipping).2.2 (by decide) 2 _ rfl).2 (by decide)⟩

/-- The terms of `.x>a+b`. -/
def hoisting : List Term :=
  [{ modifiers := [.className "x".toList] }, { operator := .child, name := "a".toList },
    { operator := .sibling, name := "b".toList }]

/-- Below a nameless term the second of two siblings hangs under the first. -/
theorem sibling_hangs_under_sibling :
    transparentForest hoisting = [.node { operator := .child, name := "a".toList } [],
      .node { operator := .sibling, name := "b".toList } []] ∧
    (Assembly.ofTerms hoisting).forest Assembly.maxElements =
      .ok [{ tag := "a".toList, children := [{ tag := "b".toList }] }] ∧
    ¬ StampedAll Term.name (expandAll Term.count (transparentForest hoisting))
      [{ tag := "a".toList, children := [{ tag := "b".toList }] }] := by
  refine ⟨rfl, rfl, ?_⟩
  rintro ⟨-, hsecond⟩
  exact hsecond

end Shorthand.Nesting
