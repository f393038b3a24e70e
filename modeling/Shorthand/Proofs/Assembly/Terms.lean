import Shorthand.Proofs.Assembly.Hosts
import Shorthand.Proofs.Assembly.Plan
import Shorthand.Proofs.Element.OfTerm

/-! # The nesting that terms ask for

Each term has the depth that its operator gives it relative to the term before; its parent is the last
earlier term of depth one less. A term without a name makes no element, and a term with a name hangs
under the nearest named one of its ancestors. The assembly keeps only the path of the last named term.
Main statement: after each term this path is the one that named terms cut back to their depths and
extend (`assembled_take`). -/

namespace Shorthand

def Operator.depthFrom (depth : Nat) : Operator → Nat
  | .start => depth + 1
  | .child => depth + 1
  | .sibling => depth
  | .climb levels => depth - levels

def Term.sketch (t : Term) : Element × Nat := ((Element.ofTerm? t).getD .root, t.count)

theorem Term.tag_sketch (t : Term) : t.sketch.1.tag = t.name := by
  rw [sketch]
  cases h : Element.ofTerm? t with
  | none => exact (List.isEmpty_iff.1 (Element.ofTerm?_eq_none_iff.1 h)).symm
  | some e => exact Element.tag_ofTerm? h

namespace Nesting
open Shorthand.Tree (ofParents rowsAll)

def depthOf (terms : List Term) : Nat → Nat
  | 0 => 0
  | i + 1 => match terms[i + 1]? with
    | some t => t.operator.depthFrom (depthOf terms i)
    | none => 0

/-- There is a term at that place, and it has a name. -/
def isNamed (terms : List Term) (i : Nat) : Bool := (terms[i]?).any (!·.name.isEmpty)

def named (terms : List Term) : List (Term × Nat) := terms.zipIdx.filter (!·.1.name.isEmpty)

def nestingForest (terms : List Term) : List (Tree Term) :=
  ofParents (parent (depthOf terms)) terms.zipIdx

/-- The forest in which each named term hangs under the nearest named one of its ancestors. -/
def transparentForest (terms : List Term) : List (Tree Term) :=
  ofParents (host (depthOf terms) (isNamed terms)) (named terms)

theorem gradual_depthOf (terms : List Term) : Gradual (depthOf terms) where
  zero := rfl
  step i := by
    rw [depthOf]
    cases terms[i + 1]? with
    | none => exact Nat.zero_le _
    | some t => cases h : t.operator <;> simp only [Operator.depthFrom, h] <;> omega

theorem isNamed_of_getElem? {terms : List Term} {i : Nat} {t : Term} (h : terms[i]? = some t) :
    isNamed terms i = !t.name.isEmpty := by
  rw [isNamed, h, Option.any_some]

theorem mem_named_iff {terms : List Term} {x : Term × Nat} :
    x ∈ named terms ↔ terms[x.2]? = some x.1 ∧ isNamed terms x.2 = true := by
  rw [named, List.mem_filter, List.mem_zipIdx_iff_getElem?]
  exact and_congr_right fun h => by rw [isNamed_of_getElem? h]

theorem mem_map_named_iff {terms : List Term} {i : Nat} :
    i ∈ (named terms).map (·.2) ↔ isNamed terms i = true := by
  rw [List.mem_map]
  constructor
  · rintro ⟨x, hx, rfl⟩
    exact (mem_named_iff.1 hx).2
  · intro h
    cases ht : terms[i]? with
    | none =>
      rw [isNamed, ht] at h
      cases h
    | some t => exact ⟨(t, i), mem_named_iff.2 ⟨ht, h⟩, rfl⟩

theorem pairwise_zipIdx (terms : List Term) : (terms.zipIdx.map (·.2)).Pairwise (· < ·) := by
  rw [List.zipIdx_map_snd]
  exact List.pairwise_lt_range'

theorem pairwise_named (terms : List Term) : ((named terms).map (·.2)).Pairwise (· < ·) :=
  (pairwise_zipIdx terms).sublist (List.Sublist.map _ List.filter_sublist)

/-- The rows of the nesting are the terms with their depths. -/
theorem rowsAll_nestingForest (terms : List Term) :
    rowsAll 0 (nestingForest terms) = terms.zipIdx.map fun x => (depthOf terms x.2, x.1) := by
  have hn := gradual_depthOf terms
  have hbelow : ∀ j ∈ terms.zipIdx.map (·.2), ∀ m, m < j → true = true →
      m ∈ terms.zipIdx.map (·.2) := by
    simp only [List.zipIdx_map_snd, List.mem_range'_1]
    intro j hj m hm _
    omega
  rw [nestingForest, ← funext (host_true (depthOf terms)),
    rowsAll_ofParents_host hn (pairwise_zipIdx terms) (fun _ _ => rfl) hbelow]
  exact List.map_congr_left fun x _ => by rw [(rank_eq_depth_iff hn).2 fun _ _ => rfl]

theorem rowsAll_transparentForest (terms : List Term) :
    rowsAll 0 (transparentForest terms) =
      (named terms).map fun x => (rank (depthOf terms) (isNamed terms) x.2, x.1) :=
  rowsAll_ofParents_host (gradual_depthOf terms) (pairwise_named terms)
    (fun _ hx => (mem_named_iff.1 hx).2) fun _ _ _ _ hm => mem_map_named_iff.2 hm

/-! ## The assembly after each term -/

structure Assembled (terms : List Term) (n : Nat) (a : Assembly) : Prop where
  start : n = 0 → a.depth = none
  depth : ∀ m, n = m + 1 → a.depth = some (depthOf terms m)
  path : Template.spine a.templates = pathLength (depthOf terms) (isNamed terms) n
  rows : rowsAll 0 (Template.trees a.templates) =
    ((terms.zipIdx.take n).filter (!·.1.name.isEmpty)).map fun x =>
      (pathRank (depthOf terms) (isNamed terms) x.2, x.1.sketch)

theorem assembled_nil (terms : List Term) : Assembled terms 0 {} where
  start _ := rfl
  depth _ h := nomatch h
  path := by rw [Template.spine, pathLength]
  rows := by rw [Template.trees]; rfl

theorem depthAfter_some (depth : Nat) (operator : Operator) :
    Assembly.depthAfter (some depth) operator = operator.depthFrom depth := by
  cases operator <;> rfl

/-- Each term gets the depth that its operator gives it. -/
theorem Assembled.depthAfter {terms : List Term} {n : Nat} {t : Term} {a : Assembly}
    (ha : Assembled terms n a) (ht : terms[n]? = some t) :
    Assembly.depthAfter a.depth t.operator = depthOf terms n := by
  cases n with
  | zero => rw [ha.start rfl]; rfl
  | succ m =>
    rw [ha.depth m rfl, depthOf, ht, depthAfter_some]

/-- The step of the assembly. -/
theorem Assembled.push {terms : List Term} {n : Nat} {t : Term} {a : Assembly}
    (ha : Assembled terms n a) (ht : terms[n]? = some t) : Assembled terms (n + 1) (a.push t) := by
  have htake : terms.zipIdx.take (n + 1) = terms.zipIdx.take n ++ [(t, n)] := by
    rw [List.take_add_one, List.getElem?_zipIdx, ht]
    simp
  have hdepth := ha.depthAfter ht
  have hnamed := isNamed_of_getElem? ht
  refine ⟨fun hzero => absurd hzero (Nat.succ_ne_zero n), fun m hm => ?_, ?_, ?_⟩
  · cases hm
    exact congrArg some hdepth
  · rw [Assembly.push, pathLength, hnamed]
    -- a term without a name moves the depth and nothing else
    cases he : Element.ofTerm? t with
    | none => simpa [Element.ofTerm?_eq_none_iff.1 he] using ha.path
    | some e =>
      have hname : t.name.isEmpty = false := by
        rw [← Bool.not_eq_true, ← Element.ofTerm?_eq_none_iff, he]
        exact Option.some_ne_none e
      simp only [hname, hdepth, Template.spine_attach, ha.path]
      rfl
  · rw [Assembly.push, htake, List.filter_append, List.map_append, ← ha.rows]
    cases he : Element.ofTerm? t with
    | none => simp [Element.ofTerm?_eq_none_iff.1 he]
    | some e =>
      have hname : t.name.isEmpty = false := by
        rw [← Bool.not_eq_true, ← Element.ofTerm?_eq_none_iff, he]
        exact Option.some_ne_none e
      simp only [hdepth, Template.rowsAll_attach, ha.path]
      simp [hname, Template.tree, Template.trees, Tree.rows, rowsAll, pathRank, Term.sketch, he]

theorem assembled_take (terms : List Term) : ∀ {n : Nat}, n ≤ terms.length →
    Assembled terms n (Assembly.ofTerms (terms.take n))
  | 0, _ => assembled_nil terms
  | n + 1, hn => by
    have ht := List.getElem?_eq_getElem (Nat.lt_of_succ_le hn)
    have hstep := (assembled_take terms (Nat.le_of_succ_le hn)).push ht
    rw [Assembly.ofTerms, List.take_add_one, ht, List.foldl_append]
    exact hstep

/-- The rows of the plan give each named term the length of path that is left for it. -/
theorem rowsAll_trees_ofTerms (terms : List Term) :
    rowsAll 0 (Template.trees (Assembly.ofTerms terms).templates) =
      (named terms).map fun x => (pathRank (depthOf terms) (isNamed terms) x.2, x.1.sketch) := by
  have h := (assembled_take terms (Nat.le_refl terms.length)).rows
  rw [List.take_length] at h
  rw [h, List.take_of_length_le (by simp)]
  rfl

end Nesting
end Shorthand
