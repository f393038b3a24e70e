import Shorthand.Expansion
import Shorthand.Outline
import Shorthand.Proofs.Assembly.Plan

/-! # The budget of an assembly

A template is produced as often as its count and the counts of all templates around it say, multiplied.
The demand of an assembly is the sum of these products. It is also the number of elements that are made,
and the tally that is compared with the limit before any is made is the demand up to the largest tally.
Main statement: the forest is refused exactly when the demand is over the limit, and otherwise it holds as
many elements as demanded, if it is made (`forest_within_budget`). -/

namespace Shorthand
open Text.Numbering (wideName)

namespace Tree

variable {α : Type}

mutual

/-- How many nodes are produced: for each node the product of its count and the counts of all nodes above
it. The factor is the product of the counts above the tree. -/
def demand (count : α → Nat) (factor : Nat) : Tree α → Nat
  | .node label below => factor * count label + demandAll count (factor * count label) below

def demandAll (count : α → Nat) (factor : Nat) : List (Tree α) → Nat
  | [] => 0
  | t :: ts => demand count factor t + demandAll count factor ts

end

mutual

theorem demand_eq_mul (count : α → Nat) : ∀ (t : Tree α) (factor : Nat),
    demand count factor t = factor * sizeAll (expand count t)
  | .node label below, factor => by
    have hbelow := demandAll_eq_mul count below (factor * count label)
    rw [demand, hbelow, expand, sizeAll_replicate, size, Nat.mul_succ, Nat.mul_add, Nat.mul_assoc,
      Nat.add_comm]

/-- The demand is the number of nodes after expansion. -/
theorem demandAll_eq_mul (count : α → Nat) : ∀ (ts : List (Tree α)) (factor : Nat),
    demandAll count factor ts = factor * sizeAll (expandAll count ts)
  | [], _ => rfl
  | t :: ts, factor => by
    rw [demandAll, demand_eq_mul count t, demandAll_eq_mul count ts, expandAll, sizeAll_append,
      Nat.mul_add]

end

/-- Elements that are stamped from a forest are as many as its nodes. -/
theorem StampedAll.length_ofForestAt {name : α → Text} : ∀ {ts : List (Tree α)} {es : List Element}
    {depth : Nat}, StampedAll name ts es → (Outline.ofForestAt depth es).length = sizeAll ts
  | [], [], _, _ => rfl
  | .node label below :: ts, ⟨tag, attributes, children, text⟩ :: es, depth, ⟨⟨_, hbelow⟩, hrest⟩ => by
    have hchildren : (Outline.ofForestAt (depth + 1) children).length = sizeAll below :=
      hbelow.length_ofForestAt
    have hothers : (Outline.ofForestAt depth es).length = sizeAll ts := hrest.length_ofForestAt
    rw [Outline.ofForestAt, Outline.ofElement, List.length_append, List.length_cons, hchildren, hothers,
      sizeAll, size]

end Tree

namespace Assembly

def demand (a : Assembly) : Nat := Tree.demandAll (·.2) 1 (Template.trees a.templates)

theorem demand_eq (a : Assembly) :
    a.demand = Tree.sizeAll (Tree.expandAll (·.2) (Template.trees a.templates)) := by
  rw [demand, Tree.demandAll_eq_mul, Nat.one_mul]

theorem tallyAll_eq_demand (a : Assembly) :
    Template.tallyAll a.templates = min a.demand maxTally := by
  rw [Template.tallyAll_eq, demand_eq]

/-- As many elements are made as demanded. -/
theorem length_copiesAll (a : Assembly) :
    (Outline.ofForest (Template.copiesAll none a.templates)).length = a.demand := by
  rw [Outline.ofForest, (Template.stampedAll_copiesAll a.templates none).length_ofForestAt, demand_eq]

/-- Below the largest tally a limit is met by the tally exactly when it is met by the demand. -/
theorem forest_eq (a : Assembly) {limit : Nat} (hlimit : limit < maxTally) :
    a.forest limit = if limit < a.demand then .error ⟨min a.demand maxTally, limit⟩
      else if a.Paddable then .ok (Template.copiesAll none a.templates) else .aborted := by
  have htally : limit < min a.demand maxTally ↔ limit < a.demand := by omega
  simp only [forest_eq_ite, tallyAll_eq_demand, htally]

theorem forest_eq_error_iff (a : Assembly) {limit : Nat} (hlimit : limit < maxTally) :
    a.forest limit = .error ⟨min a.demand maxTally, limit⟩ ↔ limit < a.demand := by
  rw [a.forest_eq hlimit]
  by_cases h : limit < a.demand <;> by_cases hp : a.Paddable <;> simp [h, hp]

theorem forest_eq_ok_iff (a : Assembly) {limit : Nat} (hlimit : limit < maxTally) :
    a.forest limit = .ok (Template.copiesAll none a.templates) ↔ a.demand ≤ limit ∧ a.Paddable := by
  rw [a.forest_eq hlimit, ← Nat.not_lt]
  by_cases h : limit < a.demand <;> by_cases hp : a.Paddable <;> simp [h, hp]

theorem forest_eq_aborted_iff (a : Assembly) {limit : Nat} (hlimit : limit < maxTally) :
    a.forest limit = .aborted ↔ a.demand ≤ limit ∧ ¬a.Paddable := by
  rw [a.forest_eq hlimit, ← Nat.not_lt]
  by_cases h : limit < a.demand <;> by_cases hp : a.Paddable <;> simp [h, hp]

end Assembly

namespace Outline

theorem length_ofForest_pos {forest : List Element} (h : forest ≠ []) : 0 < (ofForest forest).length := by
  obtain ⟨⟨tag, attributes, children, text⟩, es, rfl⟩ := List.exists_cons_of_ne_nil h
  exact Nat.zero_lt_succ _

end Outline

/-! ## Expansion -/

namespace Expander

/-- A forest that is expanded is what its terms are assembled to, and not empty. -/
theorem forest_eq_ok {x : Expander} {abbreviation : Text} {forest : List Element}
    (h : x.forest abbreviation = .ok forest) : forest ≠ [] ∧
      (Assembly.ofTerms (x.terms abbreviation)).forest Assembly.maxElements = .ok forest := by
  unfold Expander.forest at h
  split at h
  · cases h
  · split at h
    · cases h
    · cases h
    · cases h
    · rename_i hne hforest
      cases h
      exact ⟨hne, hforest⟩

theorem length_ofForest_le {x : Expander} {abbreviation : Text} {forest : List Element}
    (h : x.forest abbreviation = .ok forest) :
    (Outline.ofForest forest).length ≤ Assembly.maxElements := by
  have hforest := (forest_eq_ok h).2
  obtain rfl := Assembly.forest_eq_ok hforest
  rw [Assembly.length_copiesAll]
  exact ((Assembly.forest_eq_ok_iff _ (by decide)).1 hforest).1

end Expander

/-- Terms whose counts pass the largest tally below a term with the given count, a nameless term among
them, and a term beside them. -/
def Assembly.overflowing (count : Nat) : List Term :=
  [{ name := "a".toList, count },
    { operator := .child, name := "b".toList, count := maxTally },
    { operator := .child, count := maxTally },
    { operator := .child, name := "c".toList, count := maxTally },
    { operator := .climb 3, name := "d".toList, count := 3 }]

end Shorthand
