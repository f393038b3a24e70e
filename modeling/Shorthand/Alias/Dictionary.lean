import Shorthand.Text

/-!
Dictionaries from texts to texts, kept in strictly increasing order of their keys, so that two
dictionaries with the same entries are equal.
-/

namespace Shorthand

/-- Entries in strictly increasing order of their keys. -/
structure Dictionary where
  entries : List (Text × Text)
  sorted : entries.Pairwise (·.1 < ·.1)

namespace Dictionary

theorem ext {d e : Dictionary} (h : d.entries = e.entries) : d = e := by
  cases d
  cases e
  cases h
  rfl

instance : DecidableEq Dictionary := fun d e =>
  if h : d.entries = e.entries then isTrue (ext h) else isFalse fun he => h (he ▸ rfl)

def empty : Dictionary := ⟨[], .nil⟩

def isEmpty (d : Dictionary) : Bool := d.entries.isEmpty

def size (d : Dictionary) : Nat := d.entries.length

def get? (d : Dictionary) (key : Text) : Option Text := d.entries.lookup key

/-- Puts an entry in its place among sorted ones; one with the same key is replaced. -/
def place (key value : Text) : List (Text × Text) → List (Text × Text)
  | [] => [(key, value)]
  | (k, v) :: rest =>
    if key < k then (key, value) :: (k, v) :: rest
    else if key = k then (key, value) :: rest
    else (k, v) :: place key value rest

theorem mem_place {key value : Text} {es : List (Text × Text)} {e : Text × Text}
    (h : e ∈ place key value es) : e = (key, value) ∨ e ∈ es := by
  induction es with
  | nil => simpa [place] using h
  | cons x rest ih =>
    simp only [place] at h
    split at h
    · simpa using h
    · split at h
      · rcases List.mem_cons.1 h with h | h
        · exact .inl h
        · exact .inr (List.mem_cons_of_mem _ h)
      · rcases List.mem_cons.1 h with h | h
        · exact .inr (h ▸ List.mem_cons_self)
        · exact (ih h).imp id (List.mem_cons_of_mem _)

theorem lt_of_not_lt {a b : Text} (h : ¬a < b) (hne : a ≠ b) : b < a :=
  List.not_le.1 fun hle => hne (List.le_antisymm hle (List.not_lt.1 h))

theorem sorted_place {key value : Text} {es : List (Text × Text)}
    (h : es.Pairwise (·.1 < ·.1)) : (place key value es).Pairwise (·.1 < ·.1) := by
  induction es with
  | nil => simp [place]
  | cons x rest ih =>
    obtain ⟨hx, hrest⟩ := List.pairwise_cons.1 h
    simp only [place]
    split
    · rename_i hlt
      refine List.pairwise_cons.2 ⟨fun e he => ?_, h⟩
      rcases List.mem_cons.1 he with rfl | he
      · exact hlt
      · exact List.lt_trans hlt (hx e he)
    · split
      · rename_i heq
        exact List.pairwise_cons.2 ⟨fun e he => heq ▸ hx e he, hrest⟩
      · rename_i hlt hne
        refine List.pairwise_cons.2 ⟨fun e he => ?_, ih hrest⟩
        rcases mem_place he with rfl | he
        · exact lt_of_not_lt hlt hne
        · exact hx e he

/-- The dictionary with one more entry; an entry with the same key is replaced. -/
def insert (key value : Text) (d : Dictionary) : Dictionary :=
  ⟨place key value d.entries, sorted_place d.sorted⟩

/-- The dictionary with one more entry, unless the key has one. -/
def insertNew (key value : Text) (d : Dictionary) : Dictionary :=
  if (d.get? key).isSome then d else d.insert key value

/-- The dictionary of a list of entries; of several with the same key the last one counts. -/
def ofList (entries : List (Text × Text)) : Dictionary :=
  entries.foldl (fun d (key, value) => d.insert key value) empty

theorem lookup_cons (k a v : Text) (es : List (Text × Text)) :
    ((a, v) :: es).lookup k = if k = a then some v else es.lookup k := by
  by_cases h : k = a
  · simp [h]
  · simp [List.lookup_cons, beq_eq_false_iff_ne.2 h, h]

theorem lookup_place (key value : Text) (es : List (Text × Text)) (k : Text) :
    (place key value es).lookup k = if k = key then some value else es.lookup k := by
  induction es with
  | nil => exact lookup_cons k key value []
  | cons x rest ih =>
    obtain ⟨a, v⟩ := x
    simp only [place]
    split
    · exact lookup_cons k key value _
    · split
      · rename_i heq
        simp only [lookup_cons, heq]
        split <;> rfl
      · rename_i hne
        simp only [lookup_cons, ih]
        split
        · rename_i ha
          rw [if_neg fun hk => hne (hk.symm.trans ha)]
        · rfl

@[simp] theorem get?_empty (key : Text) : empty.get? key = none := rfl

theorem get?_insert (d : Dictionary) (key value k : Text) :
    (d.insert key value).get? k = if k = key then some value else d.get? k :=
  lookup_place key value d.entries k

theorem get?_insertNew (d : Dictionary) (key value k : Text) :
    (d.insertNew key value).get? k = (d.get? k).or (if k = key then some value else none) := by
  unfold insertNew
  by_cases hk : k = key
  · subst hk
    cases h : d.get? k <;> simp [h, get?_insert]
  · split <;> simp [get?_insert, hk]

end Dictionary
end Shorthand
