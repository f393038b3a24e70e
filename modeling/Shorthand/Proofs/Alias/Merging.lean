import Shorthand.Proofs.Alias.Layers

/-! # Laws of merging

A dictionary is known by the values of its keys, and one whose keys are in lower case by their values at
lower-case keys. There a merged dictionary has the first of two answers, so merging is associative and leaves
merged dictionaries as they are. Main statement: these laws, which key of a layer counts, and that every
listed alias is found (`merge_lawful`). -/

namespace Shorthand

namespace Dictionary

theorem get?_eq_some_iff {d : Dictionary} {key value : Text} :
    d.get? key = some value ↔ (key, value) ∈ d.entries := by
  rw [get?_eq_find?, Option.map_eq_some_iff]
  constructor
  · rintro ⟨e, hfound, rfl⟩
    have hkey : e.1 = key := by simpa using List.find?_some hfound
    exact hkey ▸ List.mem_of_find?_eq_some hfound
  · intro hmem
    have hsome : (d.entries.find? (·.1 == key)).isSome = true :=
      List.find?_isSome.2 ⟨_, hmem, beq_self_eq_true key⟩
    obtain ⟨e, hfound⟩ := Option.isSome_iff_exists.1 hsome
    have hkey : e.1 = key := by simpa using List.find?_some hfound
    have he := List.inj_on_of_nodup_map d.nodup_keys (List.mem_of_find?_eq_some hfound) hmem hkey
    exact ⟨e, hfound, congrArg Prod.snd he⟩

/-- Two dictionaries with the same values are one. -/
theorem ext_get? {d e : Dictionary} (h : ∀ key, d.get? key = e.get? key) : d = e := by
  have hmem : ∀ entry, entry ∈ d.entries ↔ entry ∈ e.entries := fun entry => by
    rw [← get?_eq_some_iff, ← get?_eq_some_iff, h]
  have hperm : d.entries.Perm e.entries :=
    (List.perm_ext_iff_of_nodup d.nodup_keys.of_map e.nodup_keys.of_map).2 hmem
  exact ext (hperm.eq_of_pairwise (fun _ _ _ _ hlt hgt => absurd hgt (List.lt_asymm hlt)) d.sorted e.sorted)

end Dictionary

namespace Alias
open Unicode (lowercase)

/-! ## Which key of a layer counts -/

/-- The value is that of the least key whose lower case is the given one. -/
def Least (d : Dictionary) (lower value : Text) : Prop :=
  ∃ key, d.get? key = some value ∧ lowercase key = lower ∧
    ∀ other, (d.get? other).isSome = true → lowercase other = lower → ¬ other < key

def Lacks (d : Dictionary) (lower : Text) : Prop :=
  ∀ key, (d.get? key).isSome = true → lowercase key ≠ lower

theorem Least.unique {d : Dictionary} {lower value value' : Text} (h : Least d lower value)
    (h' : Least d lower value') : value = value' := by
  obtain ⟨key, hvalue, hlower, hleast⟩ := h
  obtain ⟨key', hvalue', hlower', hleast'⟩ := h'
  have hle := hleast key' (Option.isSome_of_eq_some hvalue') hlower'
  have hle' := hleast' key (Option.isSome_of_eq_some hvalue) hlower
  by_cases hkey : key' = key
  · rw [hkey, hvalue] at hvalue'
    exact Option.some.inj hvalue'
  · exact absurd (Dictionary.lt_of_not_lt hle hkey) hle'

/-- The first entry has the least key. -/
theorem least_of_first? {d : Dictionary} {key value : Text} (h : first? d.entries key = some value) :
    Least d (lowercase key) value := by
  obtain ⟨e, hfound, rfl⟩ := Option.map_eq_some_iff.1 h
  obtain ⟨hlower, before, after, hentries, hbefore⟩ := List.find?_eq_some_iff_append.1 hfound
  refine ⟨e.1, Dictionary.get?_eq_some_iff.2 (List.mem_of_find?_eq_some hfound), beq_iff_eq.1 hlower,
    fun other hother hlower' hlt => ?_⟩
  obtain ⟨value, hvalue⟩ := Option.isSome_iff_exists.1 hother
  have hmem := Dictionary.get?_eq_some_iff.1 hvalue
  have hsorted := d.sorted
  rw [hentries] at hmem hsorted
  rcases List.mem_append.1 hmem with hmem | hmem
  · have hno := hbefore _ hmem
    rw [beq_iff_eq.2 hlower'] at hno
    cases hno
  · rcases List.mem_cons.1 hmem with heq | hmem
    · rw [← heq] at hlt
      exact List.lt_irrefl _ hlt
    · have hbehind := (List.pairwise_cons.1 (List.pairwise_append.1 hsorted).2.1).1 _ hmem
      exact List.lt_asymm hlt hbehind

theorem first?_eq_none_iff {d : Dictionary} {key : Text} :
    first? d.entries key = none ↔ Lacks d (lowercase key) := by
  rw [← Option.not_isSome_iff_eq_none, isSome_first?_iff, List.mem_map]
  constructor
  · intro h other hother hlower
    obtain ⟨value, hvalue⟩ := Option.isSome_iff_exists.1 hother
    exact h ⟨_, Dictionary.get?_eq_some_iff.1 hvalue, hlower⟩
  · rintro h ⟨e, he, hlower⟩
    exact h e.1 (Option.isSome_of_eq_some (Dictionary.get?_eq_some_iff.2 he)) hlower

theorem first?_eq_some_iff {d : Dictionary} {key value : Text} :
    first? d.entries key = some value ↔ Least d (lowercase key) value := by
  refine ⟨least_of_first?, fun h => ?_⟩
  cases hfirst : first? d.entries key with
  | none =>
    obtain ⟨other, hvalue, hlower, -⟩ := h
    exact absurd hlower (first?_eq_none_iff.1 hfirst other (Option.isSome_of_eq_some hvalue))
  | some value' => rw [(least_of_first? hfirst).unique h]

/-- The least key of the base counts, else the least of the overrides. -/
theorem get?_merge_eq_some_iff {base overrides : Dictionary} {lower value : Text}
    (h : lowercase lower = lower) : (merge base overrides).get? lower = some value ↔
      Least base lower value ∨ Lacks base lower ∧ Least overrides lower value := by
  have hmerge := get?_merge base overrides lower
  rw [h] at hmerge
  rw [hmerge, Option.or_eq_some_iff, first?_eq_some_iff, first?_eq_none_iff, first?_eq_some_iff, h]

/-! ## Merging merged dictionaries -/

theorem LowerKeys.lowercase_eq {d : Dictionary} (h : LowerKeys d) {key : Text}
    (hkey : (d.get? key).isSome = true) : lowercase key = key := by
  obtain ⟨value, hvalue⟩ := Option.isSome_iff_exists.1 hkey
  exact h _ (Dictionary.get?_eq_some_iff.1 hvalue)

theorem LowerKeys.ext {d e : Dictionary} (hd : LowerKeys d) (he : LowerKeys e)
    (h : ∀ key, d.get? (lowercase key) = e.get? (lowercase key)) : d = e := by
  refine Dictionary.ext_get? fun key => ?_
  by_cases hkey : lowercase key = key
  · rw [← hkey]
    exact h key
  · have hd' := mt hd.lowercase_eq hkey
    have he' := mt he.lowercase_eq hkey
    rw [Option.not_isSome_iff_eq_none] at hd' he'
    rw [hd', he']

theorem merge_assoc (a b c : Dictionary) : merge a (merge b c) = merge (merge a b) c := by
  refine (lowerKeys_merge _ _).ext (lowerKeys_merge _ _) fun key => ?_
  rw [get?_merge, (lowerKeys_merge b c).first?_eq, get?_merge, get?_merge, (lowerKeys_merge a b).first?_eq,
    get?_merge, Option.or_assoc]

theorem LowerKeys.merge_empty {d : Dictionary} (h : LowerKeys d) : merge d .empty = d :=
  (lowerKeys_merge _ _).ext h fun key => by rw [get?_merge, h.first?_eq]; exact Option.or_none

theorem LowerKeys.empty_merge {d : Dictionary} (h : LowerKeys d) : merge .empty d = d :=
  (lowerKeys_merge _ _).ext h fun key => by rw [get?_merge, h.first?_eq]; exact Option.none_or

theorem LowerKeys.merge_self {d : Dictionary} (h : LowerKeys d) : merge d d = d :=
  (lowerKeys_merge _ _).ext h fun key => by rw [get?_merge, h.first?_eq, Option.or_self]

/-! ## Tables -/

inductive Table.Made : Table → Prop
  | empty : Made .empty
  | stock : Made .stock
  | ofDictionary (d : Dictionary) : Made (.ofDictionary d)
  | withOverrides (overrides : List (Text × Text)) : Made (.withOverrides overrides)

theorem lowerKeys_ofDictionary (d : Dictionary) : LowerKeys (Table.ofDictionary d).entries :=
  lowerKeys_merge d .empty

theorem Table.Made.lowerKeys {table : Table} (h : table.Made) : LowerKeys table.entries := by
  cases h with
  | empty => exact lowerKeys_empty
  | stock => exact lowerKeys_ofDictionary Alias.stock
  | ofDictionary d => exact lowerKeys_ofDictionary d
  | withOverrides overrides => exact lowerKeys_ofDictionary _

theorem Table.lookup?_lowercase (table : Table) (key : Text) :
    table.lookup? (lowercase key) = table.lookup? key := by
  rw [lookup?, lookup?, Unicode.lowercase_lowercase]

/-- An alias that is listed is looked up under the key that it is listed under. -/
theorem Table.Made.lookup?_of_mem {table : Table} (h : table.Made) {e : Text × Text}
    (he : e ∈ table.entries.entries) : table.lookup? e.1 = some e.2 := by
  rw [Table.lookup?, h.lowerKeys e he]
  exact Dictionary.get?_eq_some_iff.2 he

/-- **Merging is a lawful layering.** The keys of merged dictionaries are in lower case, and the value at a
lower-case key is that of the least key with this lower case in the first layer, or of the least in the
second where the first has none. Merging is associative, and a merged dictionary is not changed by the empty
one or by itself. In every table that can be made an alias is looked up without regard to case, and every
alias that is listed is found with its name. -/
theorem merge_lawful :
    (∀ a b key, ((merge a b).get? key).isSome = true → lowercase key = key) ∧
    (∀ a b lower value, lowercase lower = lower → ((merge a b).get? lower = some value ↔
      Least a lower value ∨ Lacks a lower ∧ Least b lower value)) ∧
    (∀ a b c, merge a (merge b c) = merge (merge a b) c) ∧
    (∀ a b, merge (merge a b) .empty = merge a b ∧ merge .empty (merge a b) = merge a b ∧
      merge (merge a b) (merge a b) = merge a b) ∧
    ∀ table : Table, table.Made →
      (∀ key, table.lookup? (lowercase key) = table.lookup? key) ∧
      ∀ e ∈ table.entries.entries, table.lookup? e.1 = some e.2 := by
  refine ⟨fun a b key hkey => (lowerKeys_merge a b).lowercase_eq hkey,
    fun a b lower value hlower => get?_merge_eq_some_iff hlower, merge_assoc, fun a b => ?_,
    fun table hmade => ⟨table.lookup?_lowercase, fun e he => hmade.lookup?_of_mem he⟩⟩
  have h := lowerKeys_merge a b
  exact ⟨h.merge_empty, h.empty_merge, h.merge_self⟩

/-- Two keys with one lower case, and a key whose last letter has a lower case of its own. -/
def colliding : Dictionary :=
  .ofList [("Card".toList, "second".toList), ("CARD".toList, "first".toList), ("ΟΔΟΣ".toList, "Road".toList)]

theorem merge_colliding :
    ((merge .empty colliding).get? "οδος".toList).isSome = true ∧
    lowercase "οδος".toList = "οδος".toList ∧
    lowercase "card".toList = "card".toList ∧
    (merge colliding colliding).get? "card".toList = some "first".toList ∧
    Least colliding "card".toList "first".toList ∧
    (Table.ofDictionary colliding).Made ∧
    ("οδος".toList, "Road".toList) ∈ (Table.ofDictionary colliding).entries.entries ∧
    (Table.ofDictionary colliding).lookup? "οδος".toList = some "Road".toList ∧
    (Table.ofDictionary colliding).lookup? "ΟΔΟΣ".toList = some "Road".toList := by
  obtain ⟨hkeys, hvalues, -, -, htables⟩ := merge_lawful
  have hsome : ((merge .empty colliding).get? "οδος".toList).isSome = true := by decide
  have hlower : lowercase "card".toList = "card".toList := by decide
  have hvalue : (merge colliding colliding).get? "card".toList = some "first".toList := by decide
  have hmade : (Table.ofDictionary colliding).Made := .ofDictionary colliding
  have hlisted : ("οδος".toList, "Road".toList) ∈ (Table.ofDictionary colliding).entries.entries := by
    decide
  have hleast := (hvalues colliding colliding _ _ hlower).1 hvalue
  have hfound := (htables _ hmade).2 _ hlisted
  have hsigma : lowercase "ΟΔΟΣ".toList = "οδος".toList := by decide
  have hcased := (htables _ hmade).1 "ΟΔΟΣ".toList
  rw [hsigma] at hcased
  exact ⟨hsome, hkeys _ _ _ hsome, hlower, hvalue, hleast.elim id And.right, hmade, hlisted, hfound,
    hcased.symm.trans hfound⟩

end Alias
end Shorthand
