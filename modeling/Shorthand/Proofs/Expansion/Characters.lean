import Shorthand.Proofs.Assembly.Budget
import Shorthand.Proofs.Assembly.Copies
import Shorthand.Proofs.Token.Characters

/-! # Characters of expansions

The forest of an abbreviation is made of the characters of the abbreviation, of the names that the aliases
stand for, and of those that elements get beside them (`forall_rows_holds`). -/

namespace Shorthand

variable {p : Char → Prop}

namespace Alias.Table

def Holds (p : Char → Prop) (table : Table) : Prop := ∀ entry ∈ table.entries.entries, ∀ c ∈ entry.2, p c

theorem forall_mem_of_lookup? {table : Table} (h : table.Holds p) {key name : Text}
    (hname : table.lookup? key = some name) : ∀ c ∈ name, p c := by
  have hget := hname
  rw [lookup?, Dictionary.get?, List.lookup_eq_some_iff] at hget
  obtain ⟨before, after, hentries, -⟩ := hget
  exact h (Unicode.lowercase key, name) (hentries ▸ by simp)

theorem forall_mem_resolveName {table : Table} (h : table.Holds p) {name : Text} (hname : ∀ c ∈ name, p c) :
    ∀ c ∈ table.resolveName name, p c := by
  unfold resolveName
  split
  · exact hname
  · cases hlookup : table.lookup? name with
    | none => exact hname
    | some value => exact forall_mem_of_lookup? h hlookup

end Alias.Table

namespace Expander

theorem holds_terms {x : Expander} (hx : x.aliases.Holds p) {abbreviation : Text}
    (h : ∀ c ∈ abbreviation, p c) : ∀ t ∈ x.terms abbreviation, t.Holds p := by
  refine List.forall_mem_map.2 fun token htoken => ?_
  have ht := Token.holds_tokenize h token htoken
  exact { name := Alias.Table.forall_mem_resolveName hx ht.name, content := ht.content }

/-- **Characters of an expansion**: what holds of the characters of the abbreviation, of those that aliases
stand for and of those that elements get beside them holds of all characters of the forest. -/
theorem forall_rows_holds {x : Expander} (hp : Supplied p) (hx : x.aliases.Holds p)
    {abbreviation : Text} (h : ∀ c ∈ abbreviation, p c) {forest : List Element}
    (hforest : x.forest abbreviation = .ok forest) : ∀ row ∈ Outline.ofForest forest, row.bare.Holds p :=
  Assembly.forall_rows_forest ⟨fun _ he => he.numbered hp, fun _ he => he.withoutText⟩
    (fun t ht _ he => Element.holds_ofTerm? hp (holds_terms hx h t ht) he)
    (forest_eq_ok hforest).2

end Expander
end Shorthand
