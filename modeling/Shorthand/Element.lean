import Shorthand.Text.Numbering

/-!
Elements of the output. An element made by the operations of this module carries text or children but
never both, and no attribute name twice.
-/

namespace Shorthand

abbrev Attribute := Text × Text

structure Element where
  tag : Text := []
  attributes : List Attribute := []
  children : List Element := []
  text : Option Text := none
deriving BEq, Inhabited, Repr

namespace Element

mutual

def decEq : (a b : Element) → Decidable (a = b)
  | ⟨tag, attributes, children, text⟩, ⟨tag', attributes', children', text'⟩ =>
    if h : tag = tag' ∧ attributes = attributes' ∧ text = text' then
      match decEqAll children children' with
      | isTrue hc => isTrue (by simp [h, hc])
      | isFalse hc => isFalse (by simp [hc])
    else isFalse fun he => h (by cases he; exact ⟨rfl, rfl, rfl⟩)

def decEqAll : (as bs : List Element) → Decidable (as = bs)
  | [], [] => isTrue rfl
  | [], _ :: _ => isFalse (by simp)
  | _ :: _, [] => isFalse (by simp)
  | a :: as, b :: bs =>
    match decEq a b, decEqAll as bs with
    | isTrue h, isTrue hs => isTrue (by simp [h, hs])
    | isFalse h, _ => isFalse (by simp [h])
    | _, isFalse hs => isFalse (by simp [hs])

end

instance : DecidableEq Element := decEq

/-- The element that holds a whole forest and has no name. -/
def root : Element := {}

/-- An element with nothing in it; none without a name. -/
def create? (name : Text) : Option Element :=
  if name.isEmpty then none else some { tag := name }

def isEmpty (e : Element) : Bool := e.children.isEmpty && e.text.isNone

def attribute? (name : Text) (e : Element) : Option Text :=
  (e.attributes.find? (·.1 == name)).map (·.2)

/-- Gives an attribute a value. One that is there keeps its place, a new one comes last. -/
def assign (name value : Text) : List Attribute → List Attribute
  | [] => [(name, value)]
  | (n, v) :: rest => if n = name then (n, value) :: rest else (n, v) :: assign name value rest

def setAttribute (name value : Text) (e : Element) : Element :=
  { e with attributes := assign name value e.attributes }

/-- Gives the element a text; an element with children takes none. -/
def setText (text : Text) (e : Element) : Element :=
  if e.children.isEmpty then { e with text := some text } else e

/-- Puts a child last; the text is dropped. -/
def pushChild (e child : Element) : Element :=
  { e with children := e.children ++ [child], text := none }

/-- Puts children last in their order; if there is any, the text is dropped. -/
def adopt (e : Element) (children : List Element) : Element :=
  if children.isEmpty then e else { e with children := e.children ++ children, text := none }

/-- The copy of an element that has the given index: its tag, attribute values and text with their
counters replaced. Children are not copied. -/
def numbered (index : Nat) (e : Element) : Element where
  tag := Text.Numbering.number index e.tag
  attributes := e.attributes.map fun (name, value) => (name, Text.Numbering.number index value)
  text := e.text.map (Text.Numbering.number index)

def numberedAttribute? (index : Nat) (a : Attribute) : Option Attribute :=
  (Text.Numbering.number? index a.2).map fun value => (a.1, value)

/-- The copy, if numbers can be padded to all counters. -/
def numbered? (index : Nat) (e : Element) : Option Element := do
  let tag ← Text.Numbering.number? index e.tag
  let attributes ← e.attributes.mapM (numberedAttribute? index)
  let text ← e.text.mapM (Text.Numbering.number? index)
  return { tag, attributes, text }

theorem adopt_eq_foldl (e : Element) (children : List Element) :
    e.adopt children = children.foldl pushChild e := by
  induction children generalizing e with
  | nil => rfl
  | cons c cs ih =>
    rw [List.foldl_cons, ← ih]
    cases cs <;> simp [adopt, pushChild]

theorem mem_map_fst_assign {name value : Text} {attributes : List Attribute} {n : Text} :
    n ∈ (assign name value attributes).map (·.1) ↔ n = name ∨ n ∈ attributes.map (·.1) := by
  induction attributes with
  | nil => simp [assign]
  | cons a rest ih =>
    obtain ⟨m, v⟩ := a
    simp only [assign]
    split
    · rename_i h
      simp only [List.map_cons, List.mem_cons]
      subst h
      exact ⟨fun h => .inr h, fun h => h.elim .inl id⟩
    · simp only [List.map_cons, List.mem_cons, ih]
      exact or_left_comm

theorem nodup_assign {name value : Text} {attributes : List Attribute}
    (h : (attributes.map (·.1)).Nodup) : ((assign name value attributes).map (·.1)).Nodup := by
  induction attributes with
  | nil => simp [assign]
  | cons a rest ih =>
    obtain ⟨m, v⟩ := a
    simp only [List.map_cons, List.nodup_cons] at h
    simp only [assign]
    split
    · simpa using h
    · rename_i hm
      simp only [List.map_cons, List.nodup_cons, mem_map_fst_assign, not_or]
      exact ⟨⟨hm, h.1⟩, ih h.2⟩

end Element
end Shorthand
