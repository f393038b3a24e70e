import Shorthand.Element.OfTerm

/-! # The element of a term

A term with a name has an element of that name, whatever its modifiers are. Attributes of distinct
names are all kept in order, and an element that has its placeholder attributes gets no others. -/

namespace Shorthand.Element

@[simp] theorem setAttribute_tag (name value : Text) (e : Element) :
    (e.setAttribute name value).tag = e.tag := rfl

@[simp] theorem setText_tag (text : Text) (e : Element) : (e.setText text).tag = e.tag := by
  unfold setText
  split <;> rfl

/-- A fold of steps that keep the tag keeps it. -/
theorem foldl_tag {β : Type} {f : Element → β → Element} (hf : ∀ e b, (f e b).tag = e.tag)
    (bs : List β) : ∀ e : Element, (bs.foldl f e).tag = e.tag := by
  induction bs with
  | nil => exact fun _ => rfl
  | cons b bs ih => exact fun e => (ih (f e b)).trans (hf e b)

@[simp] theorem apply_tag (e : Element) (m : Modifier) : (e.apply m).tag = e.tag := by
  unfold apply
  split
  · exact setText_tag _ e
  · exact foldl_tag (fun e (a : Attribute) => setAttribute_tag a.1 a.2 e) _ e

@[simp] theorem assignIfMissing_tag (e : Element) (name : Text) :
    (e.assignIfMissing name).tag = e.tag := by
  unfold assignIfMissing
  split <;> rfl

@[simp] theorem withPlaceholders_tag (e : Element) : e.withPlaceholders.tag = e.tag := by
  unfold withPlaceholders
  split
  · exact foldl_tag assignIfMissing_tag _ e
  · rfl

theorem ofTerm?_eq_none_iff {t : Term} : ofTerm? t = none ↔ t.name.isEmpty = true := by
  rw [ofTerm?, Option.map_eq_none_iff, create?]
  split <;> simp_all

theorem exists_ofTerm? {t : Term} (h : t.name ≠ []) : ∃ e, ofTerm? t = some e :=
  Option.ne_none_iff_exists'.1 fun hnone => h (List.isEmpty_iff.1 (ofTerm?_eq_none_iff.1 hnone))

/-- The element of a term has its name. -/
theorem tag_ofTerm? {t : Term} {e : Element} (h : ofTerm? t = some e) : e.tag = t.name := by
  obtain ⟨blank, hblank, rfl⟩ := Option.map_eq_some_iff.1 h
  have hname : blank.tag = t.name := by
    unfold create? at hblank
    split at hblank
    · cases hblank
    · cases hblank
      rfl
  rw [withPlaceholders_tag, foldl_tag apply_tag, hname]

/-! ## Distinct attributes -/

theorem assign_of_not_mem {name value : Text} : ∀ {attributes : List Attribute},
    name ∉ attributes.map (·.1) → assign name value attributes = attributes ++ [(name, value)]
  | [], _ => rfl
  | (n, v) :: rest, h => by
    rw [List.map_cons, List.mem_cons, not_or] at h
    rw [assign, if_neg (Ne.symm h.1), assign_of_not_mem h.2, List.cons_append]

/-- Attributes of distinct names are put behind one another. -/
theorem foldl_setAttribute : ∀ {new : List Attribute} {e : Element},
    ((e.attributes ++ new).map (·.1)).Nodup →
      new.foldl (fun e a => e.setAttribute a.1 a.2) e =
        { e with attributes := e.attributes ++ new }
  | [], ⟨_, _, _, _⟩, _ => by rw [List.append_nil]; rfl
  | (name, value) :: new, e, h => by
    have hassign : assign name value e.attributes = e.attributes ++ [(name, value)] := by
      refine assign_of_not_mem fun hm => ?_
      rw [List.map_append] at h
      exact (List.nodup_append.1 h).2.2 name hm name List.mem_cons_self rfl
    have hstep : e.setAttribute name value =
        { e with attributes := e.attributes ++ [(name, value)] } := by
      rw [setAttribute, hassign]
    have hnodup : ((e.attributes ++ [(name, value)] ++ new).map (·.1)).Nodup := by
      rw [List.append_assoc]
      exact h
    rw [List.foldl_cons]
    dsimp only
    rw [hstep, foldl_setAttribute hnodup, List.append_assoc]
    rfl

theorem assignIfMissing_of_mem {e : Element} {name : Text} (h : name ∈ e.attributes.map (·.1)) :
    e.assignIfMissing name = e := by
  obtain ⟨a, ha, rfl⟩ := List.mem_map.1 h
  have hsome : (e.attribute? a.1).isNone = false := by
    rw [attribute?, Option.isNone_map, Option.isNone_eq_false_iff, List.find?_isSome]
    exact ⟨a, ha, beq_self_eq_true a.1⟩
  rw [assignIfMissing, hsome]
  rfl

/-- An element that has its placeholder attributes is complete. -/
theorem withPlaceholders_eq_self {e : Element}
    (h : placeholderTags.contains (Unicode.lowercase e.tag) = true →
      ∀ name ∈ placeholderAttributes, name ∈ e.attributes.map (·.1)) : e.withPlaceholders = e := by
  have hfold : ∀ names : List Text, (∀ name ∈ names, name ∈ e.attributes.map (·.1)) →
      names.foldl assignIfMissing e = e := by
    intro names hnames
    induction names with
    | nil => rfl
    | cons name names ih =>
      rw [List.foldl_cons, assignIfMissing_of_mem (hnames name List.mem_cons_self)]
      exact ih fun n hn => hnames n (List.mem_cons_of_mem name hn)
  unfold withPlaceholders
  split
  · rename_i ht
    exact hfold placeholderAttributes (h ht)
  · rfl

end Shorthand.Element
