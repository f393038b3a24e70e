import Shorthand.Proofs.Element.OfTerm

/-! # What modifiers leave of their assignments

Ids, classes and attribute lists assign values to attributes, each modifier after those before it. An
attribute keeps the place of its first assignment and takes the value of the last one; placeholders that no
assignment named come behind. Main statement: `ofTerm?_assignments`. -/

namespace Shorthand

def textContents (modifiers : List Modifier) : List Text :=
  modifiers.filterMap fun m => match m with
    | .text content => some content
    | _ => none

/-- What a sequence of assignments leaves: each assigned name once, where it was assigned first, with the
value that was assigned to it last. -/
structure Attribute.Settled (assignments attributes : List Attribute) : Prop where
  nodup : (attributes.map (·.1)).Nodup
  names : ∀ name, name ∈ attributes.map (·.1) ↔ name ∈ assignments.map (·.1)
  order : (attributes.map (·.1)).Pairwise fun m n =>
    (assignments.map (·.1)).idxOf m < (assignments.map (·.1)).idxOf n
  last : ∀ a ∈ attributes, ∃ before after,
    assignments = before ++ a :: after ∧ a.1 ∉ after.map (·.1)

namespace Element

/-! ## Assignments one after another -/

theorem map_fst_assign_of_mem {name : Text} (value : Text) : ∀ {attributes : List Attribute},
    name ∈ attributes.map (·.1) → (assign name value attributes).map (·.1) = attributes.map (·.1)
  | (n, v) :: rest, h => by
    rw [assign]
    split
    · rfl
    · rename_i hn
      have hrest : name ∈ rest.map (·.1) := (List.mem_cons.1 h).resolve_left (Ne.symm hn)
      rw [List.map_cons, List.map_cons, map_fst_assign_of_mem value hrest]

theorem mem_assign {name value : Text} {a : Attribute} : ∀ {attributes : List Attribute},
    (attributes.map (·.1)).Nodup → a ∈ assign name value attributes →
      a = (name, value) ∨ a ∈ attributes ∧ a.1 ≠ name
  | [], _, h => .inl (List.mem_singleton.1 h)
  | (n, v) :: rest, hnodup, h => by
    obtain ⟨hfirst, hrest⟩ := List.nodup_cons.1 hnodup
    rw [assign] at h
    split at h
    · rename_i hn
      rcases List.mem_cons.1 h with rfl | h
      · exact .inl (by rw [hn])
      · refine .inr ⟨List.mem_cons_of_mem _ h, fun ha => hfirst ?_⟩
        exact List.mem_map.2 ⟨a, h, ha.trans hn.symm⟩
    · rename_i hn
      rcases List.mem_cons.1 h with rfl | h
      · exact .inr ⟨List.mem_cons_self, hn⟩
      · exact (mem_assign hrest h).imp_right (And.imp_left (List.mem_cons_of_mem _))

/-- One more assignment. -/
theorem settled_assign {assignments attributes : List Attribute}
    (h : Attribute.Settled assignments attributes) (name value : Text) :
    Attribute.Settled (assignments ++ [(name, value)]) (assign name value attributes) where
  nodup := nodup_assign h.nodup
  names n := by
    rw [mem_map_fst_assign, h.names, List.map_append, List.mem_append, List.map_singleton,
      List.mem_singleton, or_comm]
  order := by
    rw [List.map_append, List.map_singleton]
    have hold : (attributes.map (·.1)).Pairwise fun m n =>
        (assignments.map (·.1) ++ [name]).idxOf m < (assignments.map (·.1) ++ [name]).idxOf n := by
      refine h.order.imp_of_mem fun {m n} hm hn hlt => ?_
      rwa [List.idxOf_append, List.idxOf_append, if_pos ((h.names m).1 hm), if_pos ((h.names n).1 hn)]
    by_cases hname : name ∈ attributes.map (·.1)
    · rwa [map_fst_assign_of_mem value hname]
    · -- a new name comes behind all others, and so does its first assignment
      rw [assign_of_not_mem hname, List.map_append, List.map_singleton]
      refine List.pairwise_append.2 ⟨hold, List.pairwise_singleton _ _, fun m hm n hn => ?_⟩
      rw [List.mem_singleton.1 hn]
      have hm : m ∈ assignments.map (·.1) := (h.names m).1 hm
      rw [List.idxOf_append, List.idxOf_append, if_pos hm, if_neg (mt (h.names name).2 hname)]
      exact Nat.lt_of_lt_of_le (List.idxOf_lt_length_of_mem hm) (Nat.le_add_left _ _)
  last a ha := by
    rcases mem_assign h.nodup ha with rfl | ⟨ha, hne⟩
    · exact ⟨assignments, [], rfl, List.not_mem_nil⟩
    · obtain ⟨before, after, rfl, hafter⟩ := h.last a ha
      refine ⟨before, after ++ [(name, value)], by simp, ?_⟩
      rw [List.map_append, List.mem_append, List.map_singleton, List.mem_singleton]
      exact fun hm => hm.elim hafter hne

theorem settled_foldl_assign : ∀ (new : List Attribute) {assignments attributes : List Attribute},
    Attribute.Settled assignments attributes →
      Attribute.Settled (assignments ++ new) (new.foldl (fun as a => assign a.1 a.2 as) attributes)
  | [], _, _, h => by rwa [List.append_nil]
  | a :: new, assignments, _, h => by
    have hrest := settled_foldl_assign new (settled_assign h a.1 a.2)
    rwa [List.append_assoc] at hrest

/-! ## Modifiers one after another -/

theorem foldl_setAttribute_eq : ∀ (new : List Attribute) (e : Element),
    new.foldl (fun e a => e.setAttribute a.1 a.2) e =
      { e with attributes := new.foldl (fun as a => assign a.1 a.2 as) e.attributes }
  | [], ⟨_, _, _, _⟩ => rfl
  | a :: new, e => foldl_setAttribute_eq new (e.setAttribute a.1 a.2)

/-- All that one modifier does to an element without children. -/
theorem apply_eq {e : Element} (h : e.children = []) (m : Modifier) :
    e.apply m = { e with
      attributes := m.assignments.foldl (fun as a => assign a.1 a.2 as) e.attributes
      text := (textContents [m]).getLast?.or e.text } := by
  cases m with
  | id value => rfl
  | className value => rfl
  | attributes list => exact foldl_setAttribute_eq (AttributeList.parse list) e
  | text content =>
    rw [apply, setText, h]
    rfl

theorem foldl_apply : ∀ (modifiers : List Modifier) {e : Element}, e.children = [] →
    modifiers.foldl apply e = { e with
      attributes := (modifiers.flatMap Modifier.assignments).foldl (fun as a => assign a.1 a.2 as)
        e.attributes
      text := (textContents modifiers).getLast?.or e.text }
  | [], ⟨_, _, _, _⟩, _ => rfl
  | m :: modifiers, e, h => by
    have htexts : textContents (m :: modifiers) = textContents [m] ++ textContents modifiers := by
      rw [← List.singleton_append, textContents, List.filterMap_append]
      rfl
    have hchildren : (e.apply m).children = [] := by rw [apply_eq h, h]
    rw [List.foldl_cons, foldl_apply modifiers hchildren, apply_eq h, List.flatMap_cons,
      List.foldl_append, htexts, List.getLast?_append, Option.or_assoc]

/-! ## Placeholders -/

def missingPlaceholders (tag : Text) (attributes : List Attribute) : List Attribute :=
  if placeholderTags.contains (Unicode.lowercase tag) then
    (placeholderAttributes.filter fun name => !(attributes.map (·.1)).contains name).map (·, [])
  else []

theorem assignIfMissing_of_not_mem {e : Element} {name : Text} (h : name ∉ e.attributes.map (·.1)) :
    e.assignIfMissing name = { e with attributes := e.attributes ++ [(name, [])] } := by
  have hnone : (e.attribute? name).isNone = true := by
    rw [attribute?, Option.isNone_map, Option.isNone_iff_eq_none, List.find?_eq_none]
    exact fun a ha heq => h (List.mem_map.2 ⟨a, ha, eq_of_beq heq⟩)
  rw [assignIfMissing, if_pos hnone, setAttribute, assign_of_not_mem h]

/-- Names that are completed one after another get their places in this order. -/
theorem foldl_assignIfMissing : ∀ {names : List Text} {e : Element}, names.Nodup →
    names.foldl assignIfMissing e = { e with attributes := e.attributes ++
      (names.filter fun name => !(e.attributes.map (·.1)).contains name).map (·, []) }
  | [], ⟨_, _, _, _⟩, _ => by rw [List.filter_nil, List.map_nil, List.append_nil]; rfl
  | name :: names, e, h => by
    obtain ⟨hname, hnames⟩ := List.nodup_cons.1 h
    rw [List.foldl_cons]
    by_cases hmem : name ∈ e.attributes.map (·.1)
    · rw [assignIfMissing_of_mem hmem, foldl_assignIfMissing hnames,
        List.filter_cons_of_neg (by simpa using hmem)]
    · -- the names still to come are others, so this one makes no difference to them
      have hfilter :
          (names.filter fun n => !((e.attributes ++ [((name, []) : Attribute)]).map (·.1)).contains n) =
          names.filter fun n => !(e.attributes.map (·.1)).contains n := by
        refine List.filter_congr fun n hn => ?_
        have hne : n ≠ name := fun heq => hname (heq ▸ hn)
        simp [List.contains_eq_mem, hne]
      rw [assignIfMissing_of_not_mem hmem, foldl_assignIfMissing hnames, hfilter,
        List.filter_cons_of_pos (by simpa using hmem), List.map_cons, List.append_assoc,
        List.singleton_append]

theorem withPlaceholders_eq (e : Element) : e.withPlaceholders =
    { e with attributes := e.attributes ++ missingPlaceholders e.tag e.attributes } := by
  unfold withPlaceholders missingPlaceholders
  split
  · exact foldl_assignIfMissing (by decide)
  · obtain ⟨_, _, _, _⟩ := e
    rw [List.append_nil]

/-- A placeholder that is missing is empty. -/
theorem eq_nil_of_mem_missingPlaceholders {tag : Text} {attributes : List Attribute} {a : Attribute}
    (h : a ∈ missingPlaceholders tag attributes) : a.2 = [] := by
  unfold missingPlaceholders at h
  split at h
  · obtain ⟨_, -, rfl⟩ := List.mem_map.1 h
    rfl
  · cases h

/-- **Modifiers apply from left to right.** The element of a term with a name has its name for a tag and no
children. Its attributes are those that the assignments of the modifiers leave, each name where it was first
assigned and with the value that was assigned last; a setter or trigger has the missing ones of its
placeholders behind them. Its text is that of the last text modifier, if there is one. -/
theorem ofTerm?_assignments {t : Term} (h : t.name ≠ []) :
    ∃ attributes, Attribute.Settled (t.modifiers.flatMap Modifier.assignments) attributes ∧
      ofTerm? t = some {
        tag := t.name
        attributes := attributes ++ missingPlaceholders t.name attributes
        children := []
        text := (textContents t.modifiers).getLast? } := by
  have hcreate : create? t.name = some { tag := t.name } := if_neg (by simpa using h)
  have hstart : Attribute.Settled [] [] :=
    { nodup := .nil, names := fun _ => .rfl, order := .nil, last := nofun }
  refine ⟨_, settled_foldl_assign (t.modifiers.flatMap Modifier.assignments) hstart, ?_⟩
  rw [ofTerm?, hcreate, Option.map_some, foldl_apply t.modifiers rfl, withPlaceholders_eq, Option.or_none]

/-- A trigger whose value is assigned through a list and an id between two classes, with two texts. -/
def crossed : Term where
  name := "Trigger".toList
  modifiers := [.className "a".toList, .text "x".toList, .attributes "Value=1 x:Name=n Value=2".toList,
    .id "m".toList, .text "y".toList, .className "b".toList]

theorem ofTerm?_crossed : crossed.name ≠ [] ∧ ofTerm? crossed = some {
      tag := "Trigger".toList
      attributes := [("Style".toList, "\x7bDynamicResource b\x7d".toList), ("Value".toList, "2".toList),
        ("x:Name".toList, "m".toList), ("Property".toList, [])]
      text := some "y".toList } ∧
    ∃ attributes, Attribute.Settled (crossed.modifiers.flatMap Modifier.assignments) attributes ∧
      ofTerm? crossed = some {
        tag := crossed.name
        attributes := attributes ++ missingPlaceholders crossed.name attributes
        children := []
        text := (textContents crossed.modifiers).getLast? } :=
  ⟨by decide, by decide +kernel, ofTerm?_assignments (by decide)⟩

end Element
end Shorthand
