import Shorthand.Element.OfTerm
import Shorthand.Outline
import Shorthand.Proofs.Element.AttributeList
import Shorthand.Proofs.Rules
import Shorthand.Proofs.Token.Reading

/-! # Outlines that are written as abbreviations

Each row is written as a term: its tag, its attributes in a group with their values in single quotes, and
its text in a group of its own. The operator in front of it says how its depth differs from the depth of
the row before. Main statement: rows that are legible write an abbreviation that passes the rules. -/

namespace Shorthand
open Shorthand.Group (isPlain)

/-- The operator from a row of one depth to the next row; none before the first. -/
def Operator.between : Option Nat → Nat → Operator
  | none, _ => .start
  | some before, after =>
    if before < after then .child else if before = after then .sibling else .climb (before - after)

namespace OutlineRow

def groups (row : OutlineRow) : List Modifier :=
  (if row.attributes = [] then [] else [.attributes (AttributeList.write row.attributes)]) ++
    row.text.toList.map .text

def term (before : Option Nat) (row : OutlineRow) : Term where
  operator := .between before row.depth
  name := row.tag
  modifiers := row.groups

/-- A letter, a digit, an underscore or a colon. -/
def isTagChar (c : Char) : Bool := Unicode.isAlphanumeric c || c == '_' || c == ':'

/-- The brackets and braces, and the characters that the rules reserve. -/
def unwritable : List Char := ['[', ']', '\x7b', '\x7d', '<', '|', '@']

structure Legible (row : OutlineRow) : Prop where
  tag_ne_nil : row.tag ≠ []
  tag : ∀ c ∈ row.tag, isTagChar c = true
  tag_end : ∀ c ∈ row.tag.getLast?, Unicode.isAlphanumeric c = true
  names_nodup : (row.attributes.map (·.1)).Nodup
  name_ne_nil : ∀ a ∈ row.attributes, a.1 ≠ []
  name : ∀ a ∈ row.attributes, ∀ c ∈ a.1,
    Unicode.isBlank c = false ∧ c ∉ '=' :: '\'' :: '"' :: unwritable
  value : ∀ a ∈ row.attributes, ∀ c ∈ a.2, c ∉ '\'' :: '$' :: unwritable
  text : ∀ content ∈ row.text, ∀ c ∈ content, c ∉ '$' :: unwritable
  placeholders : Element.placeholderTags.contains (Unicode.lowercase row.tag) = true →
    ∀ name ∈ Element.placeholderAttributes, name ∈ row.attributes.map (·.1)

def isLegible (row : OutlineRow) : Bool :=
  !row.tag.isEmpty && row.tag.all isTagChar && row.tag.getLast?.all Unicode.isAlphanumeric &&
    decide (row.attributes.map (·.1)).Nodup &&
    row.attributes.all (fun a => !a.1.isEmpty &&
      a.1.all (fun c => !Unicode.isBlank c && !('=' :: '\'' :: '"' :: unwritable).contains c) &&
      a.2.all (!('\'' :: '$' :: unwritable).contains ·)) &&
    row.text.all (·.all (!('$' :: unwritable).contains ·)) &&
    (!Element.placeholderTags.contains (Unicode.lowercase row.tag) ||
      Element.placeholderAttributes.all (row.attributes.map (·.1)).contains)

theorem isLegible_iff {row : OutlineRow} : row.isLegible = true ↔ row.Legible := by
  simp only [isLegible, Bool.and_eq_true, Bool.or_eq_true, Bool.not_eq_true', List.all_eq_true,
    Option.all_eq_true, decide_eq_true_eq, List.isEmpty_eq_false_iff, List.contains_eq_mem,
    decide_eq_false_iff_not]
  constructor
  · rintro ⟨⟨⟨⟨⟨⟨hne, htag⟩, hend⟩, hnodup⟩, hattributes⟩, htext⟩, hplaceholders⟩
    exact {
      tag_ne_nil := hne
      tag := htag
      tag_end := hend
      names_nodup := hnodup
      name_ne_nil := fun a ha => (hattributes a ha).1.1
      name := fun a ha => (hattributes a ha).1.2
      value := fun a ha => (hattributes a ha).2
      text := htext
      placeholders := fun h => hplaceholders.resolve_left fun hno => hno (by simpa using h) }
  · intro h
    refine ⟨⟨⟨⟨⟨⟨h.tag_ne_nil, h.tag⟩, h.tag_end⟩, h.names_nodup⟩, fun a ha =>
      ⟨⟨h.name_ne_nil a ha, h.name a ha⟩, h.value a ha⟩⟩, h.text⟩, ?_⟩
    by_cases hp : Unicode.lowercase row.tag ∈ Element.placeholderTags
    · exact .inr (h.placeholders (by simpa using hp))
    · exact .inl hp

instance (row : OutlineRow) : Decidable row.Legible := decidable_of_iff _ isLegible_iff

end OutlineRow

namespace Outline

def terms : Option Nat → List OutlineRow → List Term
  | _, [] => []
  | before, row :: rows => row.term before :: terms (some row.depth) rows

def write (forest : List Element) : Text := (terms none (ofForest forest)).flatMap Term.write

end Outline

namespace OutlineRow

/-! ## The term of a row -/

theorem not_mem_of_isTagChar (cs : Text) {text : Text} (hcs : cs.all (!isTagChar ·) = true)
    (h : ∀ c ∈ text, isTagChar c = true) : ∀ c ∈ text, c ∉ cs := by
  intro c hc hm
  have hno := List.all_eq_true.1 hcs c hm
  rw [h c hc] at hno
  cases hno

theorem Legible.isBare_tag {row : OutlineRow} (h : row.Legible) :
    ∀ c ∈ row.tag, Delimiter.isBare c = true := by
  intro c hc
  have hno := not_mem_of_isTagChar (Delimiter.structural ++ Delimiter.modifiers ++
    [Delimiter.attributesClose, Delimiter.textClose, Delimiter.multiply]) (by decide) h.tag c hc
  rw [Delimiter.isBare, List.contains_eq_mem, decide_eq_false hno]
  rfl

theorem isPlain_of_not_mem {c : Char} (h : c ∉ unwritable) : isPlain c = true := by
  simp only [unwritable, List.mem_cons, not_or] at h
  obtain ⟨h₁, h₂, h₃, h₄, -⟩ := h
  simp [isPlain, Delimiter.groups, Delimiter.attributesOpen, Delimiter.attributesClose,
    Delimiter.textOpen, Delimiter.textClose, h₁, h₂, h₃, h₄]

/-- What a written attribute list is made of. -/
theorem forall_mem_write {p : Char → Prop} (hequals : p '=') (hquote : p '\'') (hspace : p ' ') :
    ∀ {as : List Attribute}, (∀ a ∈ as, (∀ c ∈ a.1, p c) ∧ ∀ c ∈ a.2, p c) →
      ∀ c ∈ AttributeList.write as, p c := by
  have hquoted : ∀ {a : Attribute}, ((∀ c ∈ a.1, p c) ∧ ∀ c ∈ a.2, p c) →
      ∀ c ∈ AttributeList.quoted a, p c := by
    intro a ha c hc
    simp only [AttributeList.quoted, List.mem_append, List.mem_cons, List.not_mem_nil, or_false] at hc
    rcases hc with hc | rfl | rfl | hc | rfl
    · exact ha.1 c hc
    · exact hequals
    · exact hquote
    · exact ha.2 c hc
    · exact hquote
  intro as
  induction as using AttributeList.write.induct with
  | case1 =>
    intro _ c hc
    cases hc
  | case2 a => exact fun h => hquoted (h a List.mem_cons_self)
  | case3 a b as ih =>
    intro h c hc
    rw [AttributeList.write, List.mem_append, List.mem_cons] at hc
    rcases hc with hc | rfl | hc
    · exact hquoted (h a List.mem_cons_self) c hc
    · exact hspace
    · exact ih (fun x hx => h x (List.mem_cons_of_mem a hx)) c hc

theorem Legible.not_mem_list {row : OutlineRow} (h : row.Legible) :
    ∀ c ∈ AttributeList.write row.attributes, c ∉ unwritable := by
  refine forall_mem_write (by decide) (by decide) (by decide) fun a ha => ⟨fun c hc hm => ?_, ?_⟩
  · exact (h.name a ha c hc).2 (List.mem_cons_of_mem _ (List.mem_cons_of_mem _ (List.mem_cons_of_mem _ hm)))
  · exact fun c hc hm => h.value a ha c hc (List.mem_cons_of_mem _ (List.mem_cons_of_mem _ hm))

theorem Legible.not_mem_text {row : OutlineRow} (h : row.Legible) {content : Text}
    (hc : row.text = some content) : ∀ c ∈ content, c ∉ unwritable := fun c hm hno =>
  h.text content hc c hm (List.mem_cons_of_mem _ hno)

theorem mem_groups_iff {row : OutlineRow} {m : Modifier} : m ∈ row.groups ↔
    row.attributes ≠ [] ∧ m = .attributes (AttributeList.write row.attributes) ∨
      ∃ content, row.text = some content ∧ m = .text content := by
  rw [groups, List.mem_append, List.mem_map]
  refine or_congr ?_ ?_
  · split <;> simp_all
  · simp [eq_comm]

theorem Legible.writable_term {row : OutlineRow} (h : row.Legible) (before : Option Nat) :
    (row.term before).Writable where
  name_ne_nil := h.tag_ne_nil
  name := h.isBare_tag
  count := rfl
  modifiers := by
    intro m hm
    rcases mem_groups_iff.1 hm with ⟨-, rfl⟩ | ⟨content, hc, rfl⟩
    · exact fun c hc => isPlain_of_not_mem (h.not_mem_list c hc)
    · exact fun c hm => isPlain_of_not_mem (h.not_mem_text hc c hm)
  apart := by
    change row.groups.Pairwise _
    unfold groups
    have hapart : ∀ list content, Modifier.Apart (.attributes list) (.text content) :=
      fun _ _ he => nomatch he
    split <;> cases row.text <;> simp [hapart]

theorem joins_between (before after : Nat) : (Operator.between (some before) after).Joins := by
  rw [Operator.between]
  split
  · trivial
  · split
    · trivial
    · change 0 < before - after
      omega

theorem operator_terms : ∀ (rows : List OutlineRow) (before : Nat),
    ∀ t ∈ Outline.terms (some before) rows, t.operator.Joins
  | [], _, _, ht => nomatch ht
  | row :: rows, before, t, ht => by
    rcases List.mem_cons.1 ht with rfl | ht
    · exact joins_between before row.depth
    · exact operator_terms rows row.depth t ht

theorem mem_terms : ∀ (rows : List OutlineRow) (before : Option Nat) {t : Term},
    t ∈ Outline.terms before rows → ∃ row ∈ rows, ∃ b, t = row.term b
  | row :: rows, before, t, ht => by
    rcases List.mem_cons.1 ht with rfl | ht
    · exact ⟨row, List.mem_cons_self, before, rfl⟩
    · obtain ⟨r, hr, hb⟩ := mem_terms rows (some row.depth) ht
      exact ⟨r, List.mem_cons_of_mem row hr, hb⟩

theorem writableTerms_terms {rows : List OutlineRow} (h : ∀ row ∈ rows, row.Legible) :
    WritableTerms (Outline.terms none rows) := by
  cases rows with
  | nil => trivial
  | cons row rows =>
    refine ⟨rfl, operator_terms rows row.depth, fun t ht => ?_⟩
    obtain ⟨r, hr, b, rfl⟩ := mem_terms (row :: rows) none ht
    exact (h r hr).writable_term b

/-! ## The rules -/

theorem Legible.not_mem_groups {row : OutlineRow} (h : row.Legible) :
    ∀ m ∈ row.groups, ∀ c ∈ m.content, c ∉ unwritable := by
  intro m hm
  rcases mem_groups_iff.1 hm with ⟨-, rfl⟩ | ⟨content, hc, rfl⟩
  · exact h.not_mem_list
  · exact h.not_mem_text hc

/-- A group is written between an opener and its closer. -/
theorem exists_group_of_mem_groups {row : OutlineRow} {m : Modifier} (hm : m ∈ row.groups) :
    ∃ group ∈ Delimiter.groups, m.write = group.1 :: m.content ++ [group.2] := by
  rcases mem_groups_iff.1 hm with ⟨-, rfl⟩ | ⟨content, -, rfl⟩
  · exact ⟨_, Group.attributes_mem_groups, rfl⟩
  · exact ⟨_, Group.text_mem_groups, rfl⟩

theorem spaced_flatMap {α : Type} {write : α → Text} : ∀ {as : List α},
    (∀ a ∈ as, Rules.Spaced (write a)) → Rules.Spaced (as.flatMap write)
  | [], _ => Rules.spaced_of_not_mem List.not_mem_nil
  | a :: as, h => by
    rw [List.flatMap_cons]
    exact (h a List.mem_cons_self).append (spaced_flatMap fun b hb => h b (List.mem_cons_of_mem a hb))

theorem Legible.spaced_write {row : OutlineRow} (h : row.Legible) (before : Option Nat) :
    Rules.Spaced (row.term before).write := by
  have hoperator : ' ' ∉ (Operator.between before row.depth).write := fun hm =>
    absurd (Token.structural_of_mem_write ' ' hm) (by decide)
  have htag : ' ' ∉ row.tag := fun hm =>
    not_mem_of_isTagChar [' '] (by decide) h.tag ' ' hm List.mem_cons_self
  refine (Rules.spaced_of_not_mem hoperator).append ((Rules.spaced_of_not_mem htag).append ?_)
  refine spaced_flatMap fun m hm => ?_
  obtain ⟨group, hg, hwrite⟩ := exists_group_of_mem_groups hm
  rw [hwrite]
  exact Rules.spaced_group hg m.content

theorem not_reserved_of_not_mem {c : Char} (h : c ∉ unwritable) : Rules.reserved.contains c = false := by
  simp only [unwritable, List.mem_cons, not_or] at h
  simp [Rules.reserved, h]

theorem Legible.not_reserved_write {row : OutlineRow} (h : row.Legible) (before : Option Nat) :
    ∀ c ∈ (row.term before).write, Rules.reserved.contains c = false := by
  have hstructural : ∀ c ∈ Delimiter.structural, Rules.reserved.contains c = false := by
    simp [Delimiter.structural, Delimiter.child, Delimiter.sibling, Delimiter.climb, Rules.reserved]
  have hgroups : ∀ group ∈ Delimiter.groups, Rules.reserved.contains group.1 = false ∧
      Rules.reserved.contains group.2 = false := by decide
  intro c hc
  rcases List.mem_append.1 hc with hc | hc
  · exact hstructural c (by simpa using Token.structural_of_mem_write c hc)
  rcases List.mem_append.1 hc with hc | hc
  · have hno := not_mem_of_isTagChar Rules.reserved (by decide) h.tag c hc
    rw [List.contains_eq_mem, decide_eq_false hno]
  · obtain ⟨m, hm, hc⟩ := List.mem_flatMap.1 hc
    obtain ⟨group, hg, hwrite⟩ := exists_group_of_mem_groups hm
    rw [hwrite, List.cons_append, List.mem_cons, List.mem_append, List.mem_singleton] at hc
    rcases hc with rfl | hc | rfl
    · exact (hgroups group hg).1
    · exact not_reserved_of_not_mem (h.not_mem_groups m hm c hc)
    · exact (hgroups group hg).2

def EndsWell (text : Text) : Prop := ∀ c ∈ text.getLast?, Rules.canEndWith c = true

theorem EndsWell.append {u v : Text} (hu : v = [] → EndsWell u) (hv : EndsWell v) :
    EndsWell (u ++ v) := by
  intro c hc
  cases v with
  | nil =>
    rw [List.append_nil] at hc
    exact hu rfl c hc
  | cons d v =>
    rw [List.getLast?_append, List.getLast?_cons, Option.some_or] at hc
    exact hv c (by rw [List.getLast?_cons]; exact hc)

theorem endsWell_flatMap {α : Type} {write : α → Text} : ∀ {as : List α},
    (∀ a ∈ as, EndsWell (write a)) → EndsWell (as.flatMap write)
  | [], _ => nofun
  | a :: as, h => by
    rw [List.flatMap_cons]
    exact .append (fun _ => h a List.mem_cons_self)
      (endsWell_flatMap fun b hb => h b (List.mem_cons_of_mem a hb))

theorem Legible.endsWell_write {row : OutlineRow} (h : row.Legible) (before : Option Nat) :
    EndsWell (row.term before).write := by
  have hgroups : ∀ group ∈ Delimiter.groups, Rules.canEndWith group.2 = true := by decide
  have htag : EndsWell row.tag := by
    intro c hc
    rw [Rules.canEndWith, h.tag_end c hc]
    rfl
  refine .append (fun hnil => absurd hnil (Term.body_ne_nil (h.writable_term before))) ?_
  refine .append (fun _ => htag) (endsWell_flatMap fun m hm => ?_)
  obtain ⟨group, hg, hwrite⟩ := exists_group_of_mem_groups hm
  intro c hc
  rw [hwrite, List.getLast?_concat] at hc
  cases hc
  exact hgroups group hg

theorem mem_of_opensWith {operators : List Char} {text : Text}
    (h : text = [] ∨ Fragment.opensWith operators text = true) : ∀ c ∈ text.head?, c ∈ operators := by
  intro c hc
  cases text with
  | nil => cases hc
  | cons d text =>
    cases hc
    simpa [Fragment.opensWith] using h

/-- What follows the first tag is no continuation of an escape prefix. -/
theorem beginsWith_write {row : OutlineRow} {rows : List OutlineRow} (h : ∀ r ∈ row :: rows, r.Legible)
    (hasp : Rules.beginsWith "asp:".toList row.tag = false) :
    Rules.beginsWith "asp:".toList
      ((Outline.terms none (row :: rows)).flatMap Term.write) = false := by
  have hno : ∀ c ∈ Delimiter.modifiers ++ Delimiter.structural,
      c.toLower ∉ "asp:".toList.map Char.toLower := by
    simpa using List.all_eq_true.1 (show ((Delimiter.modifiers ++ Delimiter.structural).all
      fun c => !("asp:".toList.map Char.toLower).contains c.toLower) = true from rfl)
  obtain ⟨hstart, hj, hw⟩ := writableTerms_terms h
  have hgroups := Token.opens_modifiers row.groups
  have hrest := opens_joined (fun u hu => hw u (List.mem_cons_of_mem _ hu)) hj
  have htext : (Outline.terms none (row :: rows)).flatMap Term.write = row.tag ++
      (row.groups.flatMap Modifier.write ++
        (Outline.terms (some row.depth) rows).flatMap Term.write) := by
    rw [← List.append_assoc]
    rfl
  rw [htext]
  refine Rules.beginsWith_append hasp fun c hc => hno c ?_
  rw [List.head?_append, Option.mem_def, Option.or_eq_some_iff] at hc
  rcases hc with hc | ⟨-, hc⟩
  · exact List.mem_append_left _ (mem_of_opensWith hgroups c hc)
  · exact List.mem_append_right _ (mem_of_opensWith hrest c hc)

/-- Legible rows write an abbreviation that passes the rules. -/
theorem check_write {row : OutlineRow} {rows : List OutlineRow} (h : ∀ r ∈ row :: rows, r.Legible)
    (hasp : Rules.beginsWith "asp:".toList row.tag = false) :
    Rules.check {} ((Outline.terms none (row :: rows)).flatMap Term.write) = .ok () := by
  have hterm : ∀ t ∈ Outline.terms none (row :: rows), ∃ r : OutlineRow, r.Legible ∧ ∃ b, t = r.term b := by
    intro t ht
    obtain ⟨r, hr, b, he⟩ := mem_terms (row :: rows) none ht
    exact ⟨r, h r hr, b, he⟩
  refine Rules.check_eq_ok ?_ (fun p hp => ?_) (spaced_flatMap fun t ht => ?_)
    (nested_write (writableTerms_terms h)) (fun c hc => ?_) (endsWell_flatMap fun t ht => ?_)
  · exact List.append_ne_nil_of_left_ne_nil
      (Term.body_ne_nil ((h row List.mem_cons_self).writable_term none)) _
  · rw [List.mem_singleton.1 hp]
    exact beginsWith_write h hasp
  · obtain ⟨r, hr, b, rfl⟩ := hterm t ht
    exact hr.spaced_write b
  · obtain ⟨t, ht, hc⟩ := List.mem_flatMap.1 hc
    obtain ⟨r, hr, b, rfl⟩ := hterm t ht
    exact hr.not_reserved_write b c hc
  · obtain ⟨r, hr, b, rfl⟩ := hterm t ht
    exact hr.endsWell_write b

end OutlineRow
end Shorthand
