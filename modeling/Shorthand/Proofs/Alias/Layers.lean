import Mathlib.Data.List.Dedup
import Shorthand.Alias.Table
import Shorthand.Proofs.Unicode.Lowercase

/-! # Layers of aliases

Adding entries one after the other keeps, for each lower-case key, the first entry. A dictionary whose keys
are in lower case is not changed by being merged again. Main statements: a table of stock aliases and
overrides answers with the stock name, else with the first override (`lookup?_withOverrides`), and it is as
large as there are different lower-case keys (`size_withOverrides`). -/

namespace Shorthand

namespace Dictionary

theorem lookup_eq_find? (key : Text) (entries : List (Text × Text)) :
    entries.lookup key = (entries.find? (·.1 == key)).map (·.2) := by
  induction entries with
  | nil => rfl
  | cons e entries ih =>
    rw [lookup_cons, ih, List.find?_cons]
    by_cases h : key = e.1
    · simp [h]
    · simp [h, beq_eq_false_iff_ne.2 (Ne.symm h)]

theorem get?_eq_find? (d : Dictionary) (key : Text) :
    d.get? key = (d.entries.find? (·.1 == key)).map (·.2) := lookup_eq_find? key d.entries

theorem isSome_get?_iff {d : Dictionary} {key : Text} :
    (d.get? key).isSome = true ↔ key ∈ d.entries.map (·.1) := by
  rw [get?_eq_find?, Option.isSome_map, List.find?_isSome, List.mem_map]
  simp only [beq_iff_eq]

theorem mem_of_mem_foldl_insert {e : Text × Text} (entries : List (Text × Text)) {d : Dictionary}
    (h : e ∈ (entries.foldl (fun d (key, value) => d.insert key value) d).entries) :
    e ∈ entries ∨ e ∈ d.entries := by
  induction entries generalizing d with
  | nil => exact .inr h
  | cons e' entries ih =>
    rcases ih h with h | h
    · exact .inl (List.mem_cons_of_mem e' h)
    · rcases mem_place h with rfl | h
      · exact .inl List.mem_cons_self
      · exact .inr h

theorem mem_of_mem_ofList {e : Text × Text} {entries : List (Text × Text)}
    (h : e ∈ (ofList entries).entries) : e ∈ entries :=
  (mem_of_mem_foldl_insert entries h).elim id nofun

/-- Of several entries of a list with the same key the last one counts. -/
theorem get?_foldl_insert (entries : List (Text × Text)) (d : Dictionary) (key : Text) :
    (entries.foldl (fun d (key, value) => d.insert key value) d).get? key =
      (entries.reverse.lookup key).or (d.get? key) := by
  induction entries generalizing d with
  | nil => rfl
  | cons e entries ih =>
    obtain ⟨k, v⟩ := e
    rw [List.foldl_cons, ih, get?_insert, List.reverse_cons, List.lookup_append, Option.or_assoc,
      lookup_cons]
    by_cases h : key = k <;> simp [h]

theorem get?_ofList (entries : List (Text × Text)) (key : Text) :
    (ofList entries).get? key = entries.reverse.lookup key :=
  (get?_foldl_insert entries empty key).trans Option.or_none

theorem nodup_keys (d : Dictionary) : (d.entries.map (·.1)).Nodup := by
  refine List.pairwise_map.2 (d.sorted.imp fun {a b} hlt heq => ?_)
  rw [heq] at hlt
  exact List.lt_irrefl _ hlt

theorem place_last {key : Text} {es : List (Text × Text)} (h : ∀ e ∈ es, e.1 < key) (value : Text) :
    place key value es = es ++ [(key, value)] := by
  induction es with
  | nil => rfl
  | cons e es ih =>
    have he := h e List.mem_cons_self
    rw [place, if_neg (List.lt_asymm he), if_neg fun heq => List.lt_irrefl _ (heq ▸ he),
      ih fun f hf => h f (List.mem_cons_of_mem e hf)]
    rfl

theorem foldl_insert_entries {news : List (Text × Text)} : ∀ {d : Dictionary},
    (d.entries ++ news).Pairwise (·.1 < ·.1) →
      (news.foldl (fun d (key, value) => d.insert key value) d).entries = d.entries ++ news := by
  induction news with
  | nil =>
    intro d _
    rw [List.append_nil]
    rfl
  | cons e news ih =>
    intro d h
    have hlast : (d.insert e.1 e.2).entries = d.entries ++ [e] :=
      place_last (fun f hf => (List.pairwise_append.1 h).2.2 f hf e List.mem_cons_self) e.2
    have hall : d.entries ++ e :: news = (d.insert e.1 e.2).entries ++ news := by rw [hlast]; simp
    rw [List.foldl_cons, hall]
    exact ih (hall ▸ h)

/-- A dictionary is made of its entries. -/
theorem ofList_entries (d : Dictionary) : ofList d.entries = d := by
  refine ext ?_
  rw [ofList, foldl_insert_entries (show ([] ++ d.entries).Pairwise _ from d.sorted)]
  rfl

end Dictionary

namespace Alias
open Unicode (lowercase)

/-- The name of the first entry whose lower-case key is the lower case of the alias. -/
def first? (entries : List (Text × Text)) (key : Text) : Option Text :=
  (entries.find? fun e => lowercase e.1 == lowercase key).map (·.2)

theorem first?_cons (e : Text × Text) (entries : List (Text × Text)) (key : Text) :
    first? (e :: entries) key =
      (if lowercase key = lowercase e.1 then some e.2 else none).or (first? entries key) := by
  rw [first?, List.find?_cons]
  by_cases h : lowercase e.1 = lowercase key
  · simp [h]
  · rw [beq_eq_false_iff_ne.2 h, if_neg (Ne.symm h)]
    rfl

theorem first?_append (entries more : List (Text × Text)) (key : Text) :
    first? (entries ++ more) key = (first? entries key).or (first? more key) := by
  rw [first?, List.find?_append, Option.map_or]
  rfl

theorem isSome_first?_iff {entries : List (Text × Text)} {key : Text} :
    (first? entries key).isSome = true ↔ lowercase key ∈ entries.map fun e => lowercase e.1 := by
  rw [first?, Option.isSome_map, List.find?_isSome, List.mem_map]
  simp only [beq_iff_eq]

def LowerKeys (d : Dictionary) : Prop := ∀ e ∈ d.entries, lowercase e.1 = e.1

theorem first?_eq_lookup {entries : List (Text × Text)} (h : ∀ e ∈ entries, lowercase e.1 = e.1)
    (key : Text) : first? entries key = entries.lookup (lowercase key) := by
  induction entries with
  | nil => rfl
  | cons e entries ih =>
    rw [first?_cons, Dictionary.lookup_cons, h e List.mem_cons_self,
      ih fun e' he' => h e' (List.mem_cons_of_mem e he')]
    split <;> rfl

theorem LowerKeys.first?_eq {d : Dictionary} (h : LowerKeys d) (key : Text) :
    first? d.entries key = d.get? (lowercase key) := first?_eq_lookup h key

theorem lowerKeys_empty : LowerKeys .empty := nofun

theorem LowerKeys.addNew {d : Dictionary} (h : LowerKeys d) (entry : Text × Text) :
    LowerKeys (addNew d entry) := by
  intro e he
  rw [Alias.addNew, Dictionary.insertNew] at he
  split at he
  · exact h e he
  · rcases Dictionary.mem_place he with rfl | he
    · exact Unicode.lowercase_lowercase entry.1
    · exact h e he

theorem LowerKeys.foldl_addNew {d : Dictionary} (h : LowerKeys d) (entries : List (Text × Text)) :
    LowerKeys (entries.foldl Alias.addNew d) := by
  induction entries generalizing d with
  | nil => exact h
  | cons e entries ih => exact ih (h.addNew e)

/-- Of several entries of one lower-case key the first counts, and those already there come before. -/
theorem get?_foldl_addNew (entries : List (Text × Text)) (d : Dictionary) (key : Text) :
    (entries.foldl addNew d).get? (lowercase key) =
      (d.get? (lowercase key)).or (first? entries key) := by
  induction entries generalizing d with
  | nil => exact (Option.or_none).symm
  | cons e entries ih =>
    rw [List.foldl_cons, ih, addNew, Dictionary.get?_insertNew, Option.or_assoc, first?_cons]

theorem lowerKeys_merge (base overrides : Dictionary) : LowerKeys (merge base overrides) :=
  lowerKeys_empty.foldl_addNew _

theorem get?_merge (base overrides : Dictionary) (key : Text) :
    (merge base overrides).get? (lowercase key) =
      (first? base.entries key).or (first? overrides.entries key) := by
  rw [merge, get?_foldl_addNew, Dictionary.get?_empty, Option.none_or, first?_append]

/-! ## Tables -/

/-- Stock aliases are written in small letters. -/
theorem isLower_stockEntries : (stockEntries.all fun e => e.1.all Char.isLower) = true := by
  decide +kernel

theorem lowerKeys_stock : LowerKeys stock := by
  intro e he
  have hletters := List.all_eq_true.1 isLower_stockEntries e (Dictionary.mem_of_mem_ofList he)
  exact Unicode.lowercase_of_letters (List.all_eq_true.1 hletters)

theorem lookup?_withOverrides (entries : List (Text × Text)) (key : Text) :
    (Table.withOverrides entries).lookup? key =
      (stock.get? (lowercase key)).or (first? entries key) := by
  have hoverrides := get?_foldl_addNew entries .empty key
  rw [Dictionary.get?_empty, Option.none_or] at hoverrides
  rw [Table.withOverrides, Table.ofDictionary, Table.lookup?, get?_merge, (lowerKeys_merge _ _).first?_eq,
    get?_merge, lowerKeys_stock.first?_eq, (lowerKeys_empty.foldl_addNew entries).first?_eq, hoverrides]
  exact Option.or_none

theorem isSome_lookup?_withOverrides (entries : List (Text × Text)) (key : Text) :
    ((Table.withOverrides entries).lookup? key).isSome = true ↔
      lowercase key ∈ (stock.entries ++ entries).map fun e => lowercase e.1 := by
  rw [lookup?_withOverrides, ← lowerKeys_stock.first?_eq, ← first?_append, isSome_first?_iff]

theorem mem_keys_withOverrides {entries : List (Text × Text)} {key : Text} :
    key ∈ (Table.withOverrides entries).entries.entries.map (·.1) ↔
      key ∈ (stock.entries ++ entries).map fun e => lowercase e.1 := by
  -- both sides hold of keys in lower case alone
  by_cases hkey : lowercase key = key
  · have h := isSome_lookup?_withOverrides entries key
    rwa [Table.lookup?, Dictionary.isSome_get?_iff, hkey] at h
  · constructor
    · intro h
      obtain ⟨e, he, rfl⟩ := List.mem_map.1 h
      exact absurd (lowerKeys_merge _ _ e he) hkey
    · intro h
      obtain ⟨e, -, rfl⟩ := List.mem_map.1 h
      exact absurd (Unicode.lowercase_lowercase e.1) hkey

theorem size_withOverrides (entries : List (Text × Text)) : (Table.withOverrides entries).size =
    ((stock.entries ++ entries).map fun e => lowercase e.1).dedup.length := by
  have hperm : ((Table.withOverrides entries).entries.entries.map (·.1)).Perm
      ((stock.entries ++ entries).map fun e => lowercase e.1).dedup :=
    (List.perm_ext_iff_of_nodup (Dictionary.nodup_keys _) (List.nodup_dedup _)).2 fun key => by
      rw [mem_keys_withOverrides, List.mem_dedup]
  rw [Table.size, Dictionary.size, ← hperm.length_eq, List.length_map]

end Alias
end Shorthand
