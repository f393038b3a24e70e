import Shorthand.Proofs.Assembly.Padding
import Shorthand.Proofs.Element.Assignments
import Shorthand.Proofs.Text.Numbering
import Shorthand.Token

/-! # Names of copies

Each copy of an element has the attributes of the element with its own number in their values. Main
statement: an attribute whose value holds a counter tells the copies of an element apart, in particular a
name given by an id (`number_distinguishes`). -/

namespace Shorthand
open Text.Numbering (number number? number_injective)

namespace Element

theorem attribute?_adopt (name : Text) (e : Element) (children : List Element) :
    (e.adopt children).attribute? name = e.attribute? name := by
  unfold adopt
  split <;> rfl

/-- A copy has its number in the values of its attributes. -/
theorem attribute?_numbered (name : Text) (e : Element) (index : Nat) :
    (e.numbered index).attribute? name = (e.attribute? name).map (number index) := by
  rw [attribute?, attribute?, Option.map_map, numbered]
  induction e.attributes with
  | nil => rfl
  | cons a rest ih =>
    rw [List.map_cons, List.find?_cons, List.find?_cons]
    cases hname : a.1 == name with
    | true => rfl
    | false => exact ih

/-- The element of a term whose only modifier is an id has it for its name, and its counters are those of
the name and the id. -/
theorem ofTerm?_id {t : Term} {id : Text} (hname : t.name ≠ []) (hmodifiers : t.modifiers = [.id id]) :
    ∃ e, ofTerm? t = some e ∧ e.attribute? nameAttribute = some id ∧
      (e.Paddable ↔ Text.Numbering.Paddable t.name ∧ Text.Numbering.Paddable id) := by
  have hcreate : create? t.name = some { tag := t.name } := if_neg (by simpa using hname)
  refine ⟨(t.modifiers.foldl apply { tag := t.name }).withPlaceholders, ?_, ?_⟩
  · rw [ofTerm?, hcreate, Option.map_some]
  rw [hmodifiers, withPlaceholders_eq]
  refine ⟨rfl, and_congr_right fun _ => ?_⟩
  have hmissing : ∀ a ∈ missingPlaceholders t.name [(nameAttribute, id)], Text.Numbering.Paddable a.2 := by
    intro a ha
    rw [eq_nil_of_mem_missingPlaceholders ha]
    decide
  exact ⟨fun h => h.1 (nameAttribute, id) List.mem_cons_self,
    fun h => ⟨List.forall_mem_cons.2 ⟨h, hmissing⟩, fun text htext => absurd htext (Option.not_mem_none text)⟩⟩

end Element

namespace Template

/-- The value of an attribute in each copy of an element. -/
theorem map_attribute?_copies {element : Element} {name value : Text}
    (h : element.attribute? name = some value) (counter : Option Nat) (count : Nat)
    (nested : List Template) :
    (copies counter ⟨element, count, nested⟩).map (·.attribute? name) =
      (List.range count).map fun i => some (number ((if 1 < count then some i else counter).getD i) value) := by
  rw [copies, List.map_map]
  refine List.map_congr_left fun i _ => ?_
  rw [Function.comp_apply, Element.attribute?_adopt, Element.attribute?_numbered, h]
  rfl

/-- An attribute with a counter has another value in each copy, whatever the copies lie in. -/
theorem nodup_attribute?_copies {element : Element} {name value : Text}
    (h : element.attribute? name = some value) (hvalue : '$' ∈ value) (counter : Option Nat)
    (count : Nat) (nested : List Template) :
    ((copies counter ⟨element, count, nested⟩).map (·.attribute? name)).Nodup := by
  rw [map_attribute?_copies h]
  by_cases hcount : 1 < count
  · refine List.pairwise_map.2 (List.nodup_range.imp fun {i j} hne heq => hne ?_)
    rw [if_pos hcount, if_pos hcount] at heq
    exact number_injective hvalue (Option.some.inj heq)
  · -- there are no two copies
    obtain rfl | rfl : count = 0 ∨ count = 1 := by omega
    · exact .nil
    · exact List.pairwise_singleton _ _

end Template

namespace Assembly

/-- **Numbers tell copies apart.** Numbering replaces each run of counters, as long as it can be, by the
number padded to the width of the run, and leaves the rest; no counter is left. It is carried out when no
run is too wide. Two numbers never make the same of a text with a counter. So the copies of an element whose
only modifier is an id with a counter have names, and no two of them the same, wherever the copies are made;
where the term stands alone these are the numbered ids in order. -/
theorem number_distinguishes (text : Text) :
    (∃ k : Text.Numbering.Cut, k.Maximal ∧ k.text Text.Numbering.counters = text ∧
      (∀ index, number index text = k.text fun width => Text.Numbering.padded width (index + 1)) ∧
      ∀ index, number? index text =
        if ∀ run ∈ k.runs, run.2 ≤ Text.maxWidth then some (number index text) else none) ∧
    (∀ index, '$' ∉ number index text) ∧
    ('$' ∈ text → ∀ i j, number i text = number j text → i = j) ∧
    ('$' ∈ text → ∀ t : Term, t.name ≠ [] → t.modifiers = [.id text] →
      (∃ e, Element.ofTerm? t = some e ∧ ∀ counter nested,
        ((Template.copies counter ⟨e, t.count, nested⟩).map (·.attribute? nameAttribute)).length = t.count ∧
        none ∉ (Template.copies counter ⟨e, t.count, nested⟩).map (·.attribute? nameAttribute) ∧
        ((Template.copies counter ⟨e, t.count, nested⟩).map (·.attribute? nameAttribute)).Nodup) ∧
      ∀ limit, t.count ≤ limit → ∃ forest,
        ((ofTerms [t]).forest limit =
          if t.count = 0 ∨ Text.Numbering.Paddable t.name ∧ Text.Numbering.Paddable text then .ok forest
          else .aborted) ∧
        forest.map (·.attribute? nameAttribute) = (List.range t.count).map (fun i => some (number i text)) ∧
        (forest.map (·.attribute? nameAttribute)).Nodup) := by
  refine ⟨⟨Text.Numbering.cut text, Text.Numbering.maximal_cut text, Text.Numbering.text_cut text,
    fun index => Text.Numbering.number_eq_text index text, fun index => ?_⟩,
    fun index => Text.Numbering.not_mem_number index text, fun htext i j => number_injective htext, ?_⟩
  · simp only [number?, Text.Numbering.paddable_iff]
  intro htext t hname hmodifiers
  obtain ⟨e, he, hid, hpaddable⟩ := Element.ofTerm?_id hname hmodifiers
  refine ⟨⟨e, he, fun counter nested => ⟨?_, ?_, ?_⟩⟩, fun limit hlimit => ?_⟩
  · rw [Template.map_attribute?_copies hid, List.length_map, List.length_range]
  · rw [Template.map_attribute?_copies hid]
    exact fun hnone => by simp at hnone
  · exact Template.nodup_attribute?_copies hid htext counter t.count nested
  · have hforest := forest_singleton he hlimit
    simp only [hpaddable] at hforest
    refine ⟨_, hforest, ?_, Template.nodup_attribute?_copies hid htext none t.count []⟩
    rw [Template.map_attribute?_copies hid]
    refine List.map_congr_left fun i _ => ?_
    split <;> rfl

/-- The term of `row#0$1$$*12`. -/
def rows : Term := { name := "row".toList, count := 12, modifiers := [.id "0$1$$".toList] }

theorem number_distinguishes_rows :
    (Token.tokenize "row#0$1$$*12".toList).map Token.toTerm = [rows] ∧
    number 9 "0$1$$".toList = "010110".toList ∧ number 0 "0$1$$".toList = "01101".toList ∧
    (∃ e, Element.ofTerm? rows = some e ∧ ((Template.copies (some 3) ⟨e, 12, []⟩).map
      (·.attribute? nameAttribute)).Nodup) ∧
    ∃ forest, (ofTerms [rows]).forest 12 = .ok forest ∧
      forest.map (·.attribute? nameAttribute) =
        (List.range 12).map (fun i => some (number i "0$1$$".toList)) ∧
      (forest.map (·.attribute? nameAttribute)).Nodup := by
  obtain ⟨-, -, -, hcopies⟩ := number_distinguishes "0$1$$".toList
  obtain ⟨⟨e, he, hnames⟩, hforests⟩ := hcopies (by decide) rows (by decide) rfl
  obtain ⟨forest, hforest, hmade⟩ := hforests 12 (by decide)
  rw [if_pos (by decide)] at hforest
  exact ⟨by decide +kernel, by decide, by decide, ⟨e, he, (hnames (some 3) []).2.2⟩, forest, hforest, hmade⟩

end Assembly
end Shorthand
