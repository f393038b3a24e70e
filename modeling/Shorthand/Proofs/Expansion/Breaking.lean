import Shorthand.Proofs.Expansion.Rendering
import Shorthand.Proofs.Rules
import Shorthand.Proofs.Token.Reading

/-! # Abbreviations that break the run off

An expansion breaks off exactly when the abbreviation passes the rules, does not ask for too many elements,
and has a counter that is too wide in an element that is made (`expand_eq_aborted_iff_paddable`). No rule looks
at the width of a counter, so a name is enough (`expand_of_wide_name`). -/

namespace Shorthand.Expander
open Text.Numbering (Paddable wideName not_paddable_wideName)

variable {x : Expander} {name : Text}

/-- **An expansion breaks off** where a counter is too wide, and nothing turned the abbreviation away
before. -/
theorem expand_eq_aborted_iff_paddable {abbreviation : Text} :
    x.expand abbreviation = .aborted ↔ x.rules.check abbreviation = .ok () ∧
      (Assembly.ofTerms (x.terms abbreviation)).demand ≤ Assembly.maxElements ∧
      ¬(Assembly.ofTerms (x.terms abbreviation)).Paddable := by
  rw [expand_eq_aborted_iff, ← Assembly.forest_eq_aborted_iff _ (by decide), forest]
  cases x.rules.check abbreviation with
  | error r => simp
  | ok =>
    cases (Assembly.ofTerms (x.terms abbreviation)).forest Assembly.maxElements with
    | error e => simp
    | aborted => simp
    | ok forest => cases forest <;> simp

/-- A bare name is an abbreviation of one term. -/
theorem terms_of_name (hne : name ≠ []) (hbare : ∀ c ∈ name, Delimiter.isBare c = true)
    (halias : x.aliases.resolveName name = name) : x.terms name = [{ name }] := by
  have hwritable : WritableTerms [{ name }] := by
    refine ⟨rfl, nofun, List.forall_mem_singleton.2 ?_⟩
    exact { name_ne_nil := hne, name := hbare, count := rfl, modifiers := nofun, apart := .nil }
  have hwrite : [({ name } : Term)].flatMap Term.write = name := by
    simp [Term.write, Term.body, Operator.write]
  have htokens := Token.map_toTerm_tokenize_write hwritable
  rw [hwrite] at htokens
  rw [terms, ← htokens]
  refine List.map_congr_left fun token htoken => ?_
  have hmem := List.mem_map_of_mem (f := Token.toTerm) htoken
  rw [htokens, List.mem_singleton] at hmem
  have hname : token.name = name := congrArg Term.name hmem
  rw [Alias.Table.resolve, hname, halias, ← hname]
  rfl

theorem expand_of_wide_name (hbare : ∀ c ∈ name, Delimiter.isBare c = true)
    (halias : x.aliases.resolveName name = name) (hcheck : x.rules.check name = .ok ())
    (hwide : ¬Paddable name) : x.expand name = .aborted := by
  have hne : name ≠ [] := fun hnil => hwide (hnil ▸ Text.Numbering.paddable_of_not_mem List.not_mem_nil)
  have hforest := Assembly.forest_singleton_of_wide (t := { name }) hwide Nat.one_pos
    (show 1 ≤ Assembly.maxElements by decide)
  rw [expand_eq_aborted_iff, forest, hcheck, terms_of_name hne hbare halias]
  simp only [hforest]

/-! ## A name of that kind -/

theorem forall_mem_wideName {p : Char → Prop} (hcounter : p '$') (hletter : p 'a') : ∀ c ∈ wideName, p c := by
  intro c hc
  rcases List.mem_append.1 hc with hc | hc
  · rwa [List.eq_of_mem_replicate hc]
  · rwa [List.mem_singleton.1 hc]

theorem check_wideName : ({} : Rules).check wideName = .ok () := by
  have hspace : ' ' ∉ wideName := fun hm => forall_mem_wideName (p := (· ≠ ' ')) (by decide) (by decide) _ hm rfl
  have hnested : Group.Nested wideName :=
    Group.pendingAfter_of_isPlain (forall_mem_wideName (by decide) (by decide)) []
  have hends : wideName.getLast? = some 'a' := List.getLast?_concat
  refine Rules.check_eq_ok (List.append_ne_nil_of_right_ne_nil _ nofun) ?_ (Rules.spaced_of_not_mem hspace)
    hnested (forall_mem_wideName (by decide) (by decide)) ?_
  · refine List.forall_mem_singleton.2 ?_
    rw [wideName, List.replicate_succ]
    rfl
  · rw [hends]
    rintro c ⟨⟩
    decide

theorem expand_wideName : ({ aliases := .empty } : Expander).expand wideName = .aborted :=
  expand_of_wide_name (forall_mem_wideName (by decide) (by decide)) (Alias.Table.resolveName_empty _)
    check_wideName not_paddable_wideName

end Shorthand.Expander
