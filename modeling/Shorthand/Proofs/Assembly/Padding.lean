import Shorthand.Assembly
import Shorthand.Proofs.Element.OfTerm
import Shorthand.Proofs.Text

/-! # Counters that are too wide

A number can be padded only up to a largest width. Copies are made when the counters of every element that
is copied at least once are not wider than that, and then they are what `copies` says; otherwise the run
breaks off. So an assembled forest is refused, made or broken off, and only the choice between the last two
depends on the counters (`forest_eq_ite`). -/

namespace Shorthand

/-! ## Elements -/

namespace Text.Numbering

/-- A text without counters needs no padding. -/
theorem paddable_of_not_mem {text : Text} (h : '$' ∉ text) : Paddable text :=
  Nat.le_trans (Nat.le_of_eq (longestRun_eq_zero_iff.2 h)) (Nat.zero_le _)

/-- A name with a counter that is one wider than numbers can be padded. -/
def wideName : Text := List.replicate 65536 '$' ++ ['a']

theorem not_paddable_wideName : ¬Paddable wideName := Nat.not_le.2 (le_longestRun '$' 65536 ['a'])

end Text.Numbering

section MapM

variable {α β : Type} {f : α → Option β} {g : α → β}

theorem mapM_eq_some_map : ∀ {as : List α}, (∀ a ∈ as, f a = some (g a)) → as.mapM f = some (as.map g)
  | [], _ => rfl
  | a :: as, h => by
    obtain ⟨ha, has⟩ := List.forall_mem_cons.1 h
    rw [List.mapM_cons, ha, mapM_eq_some_map has]
    rfl

theorem mapM_eq_none : ∀ {as : List α} {a : α}, a ∈ as → f a = none → as.mapM f = none
  | b :: as, a, hmem, h => by
    rw [List.mapM_cons]
    rcases List.mem_cons.1 hmem with rfl | hmem
    · rw [h]
      rfl
    · rw [mapM_eq_none hmem h]
      cases f b <;> rfl

end MapM

namespace Element
open Text.Numbering (number number?)

/-- Numbers can be padded to all counters of an element. -/
def Paddable (e : Element) : Prop :=
  Text.Numbering.Paddable e.tag ∧ (∀ a ∈ e.attributes, Text.Numbering.Paddable a.2) ∧
    ∀ text ∈ e.text, Text.Numbering.Paddable text

instance (e : Element) : Decidable e.Paddable := inferInstanceAs (Decidable (_ ∧ _ ∧ _))

/-- Holds no counter, the names of attributes aside. -/
structure Uncounted (e : Element) : Prop where
  tag : '$' ∉ e.tag
  values : ∀ a ∈ e.attributes, '$' ∉ a.2
  text : ∀ content ∈ e.text, '$' ∉ content

theorem Uncounted.paddable {e : Element} (h : e.Uncounted) : e.Paddable :=
  ⟨Text.Numbering.paddable_of_not_mem h.tag, fun a ha => Text.Numbering.paddable_of_not_mem (h.values a ha),
    fun text htext => Text.Numbering.paddable_of_not_mem (h.text text htext)⟩

/-- Numbering leaves an element without counters alone, but for its children. -/
theorem Uncounted.numbered_eq {e : Element} (h : e.Uncounted) (index : Nat) :
    e.numbered index = { e with children := [] } := by
  have hvalues : e.attributes.map (fun a => (a.1, number index a.2)) = e.attributes := by
    refine (List.map_congr_left fun a ha => ?_).trans (List.map_id _)
    exact congrArg (a.1, ·) (Text.number_eq_self index (h.values a ha))
  have htext : e.text.map (number index) = e.text := by
    cases hc : e.text with
    | none => rfl
    | some content => exact congrArg some (Text.number_eq_self index (h.text content hc))
  have hnumbered : e.numbered index = ⟨number index e.tag,
      e.attributes.map fun a => (a.1, number index a.2), [], e.text.map (number index)⟩ := rfl
  rw [hnumbered, Text.number_eq_self index h.tag, hvalues, htext]

theorem numbered?_eq_some {e : Element} (h : e.Paddable) (index : Nat) :
    e.numbered? index = some (e.numbered index) := by
  obtain ⟨htag, hvalues, htext⟩ := h
  have hname : number? index e.tag = some (number index e.tag) := if_pos htag
  have hattributes : e.attributes.mapM (numberedAttribute? index) =
      some (e.attributes.map fun a => (a.1, number index a.2)) :=
    mapM_eq_some_map fun a ha => by rw [numberedAttribute?, number?, if_pos (hvalues a ha), Option.map_some]
  have hown : e.text.mapM (number? index) = some (e.text.map (number index)) := by
    cases he : e.text with
    | none => rfl
    | some text => exact congrArg (Option.map some) (if_pos (htext text he))
  rw [numbered?, hname, hattributes, hown]
  rfl

theorem numbered?_eq_none {e : Element} (h : ¬e.Paddable) (index : Nat) : e.numbered? index = none := by
  rw [numbered?]
  by_cases htag : Text.Numbering.Paddable e.tag
  · by_cases hvalues : ∀ a ∈ e.attributes, Text.Numbering.Paddable a.2
    · have htext : e.text.mapM (number? index) = none := by
        cases he : e.text with
        | none => exact absurd ⟨htag, hvalues, he ▸ nofun⟩ h
        | some text =>
          have hwide : ¬Text.Numbering.Paddable text := fun hfits =>
            h ⟨htag, hvalues, he ▸ fun other hother => Option.some.inj hother ▸ hfits⟩
          exact congrArg (Option.map some) (if_neg hwide)
      rw [htext]
      simp
    · obtain ⟨a, ha, hwide⟩ : ∃ a ∈ e.attributes, ¬Text.Numbering.Paddable a.2 := by
        simpa using hvalues
      have hnone : numberedAttribute? index a = none := by
        rw [numberedAttribute?, number?, if_neg hwide, Option.map_none]
      rw [mapM_eq_none ha hnone]
      simp
  · rw [number?, if_neg htag]
    rfl

end Element

/-! ## Templates -/

namespace Template

mutual

def Paddable : Template → Prop
  | ⟨element, count, nested⟩ => count = 0 ∨ element.Paddable ∧ PaddableAll nested

def PaddableAll : List Template → Prop
  | [] => True
  | t :: older => PaddableAll older ∧ Paddable t

end

mutual

def decPaddable : (t : Template) → Decidable t.Paddable
  | ⟨element, count, nested⟩ =>
    have := decPaddableAll nested
    inferInstanceAs (Decidable (count = 0 ∨ element.Paddable ∧ PaddableAll nested))

def decPaddableAll : (ts : List Template) → Decidable (PaddableAll ts)
  | [] => inferInstanceAs (Decidable True)
  | t :: older =>
    have := decPaddableAll older
    have := decPaddable t
    inferInstanceAs (Decidable (PaddableAll older ∧ Paddable t))

end

instance (t : Template) : Decidable t.Paddable := decPaddable t

instance (ts : List Template) : Decidable (PaddableAll ts) := decPaddableAll ts

theorem paddable_mk {element : Element} {count : Nat} {nested : List Template} :
    Paddable ⟨element, count, nested⟩ ↔ count = 0 ∨ element.Paddable ∧ PaddableAll nested := by
  rw [Paddable]

theorem paddableAll_nil : PaddableAll [] := by
  rw [PaddableAll]
  trivial

theorem paddableAll_cons {t : Template} {older : List Template} :
    PaddableAll (t :: older) ↔ PaddableAll older ∧ t.Paddable := by
  rw [PaddableAll]

mutual

theorem copies?_eq_ite : ∀ (t : Template) (counter : Option Nat),
    copies? counter t = if t.Paddable then some (copies counter t) else none
  | ⟨element, count, nested⟩, counter => by
    rw [copies?, copies]
    by_cases hcount : count = 0
    · rw [if_pos (paddable_mk.2 (.inl hcount)), hcount]
      rfl
    by_cases h : element.Paddable ∧ PaddableAll nested
    · rw [if_pos (paddable_mk.2 (.inr h))]
      refine mapM_eq_some_map fun i _ => ?_
      dsimp only
      rw [Element.numbered?_eq_some h.1, copiesAll?_eq_ite nested, if_pos h.2]
      rfl
    · rw [if_neg (mt paddable_mk.1 (not_or.2 ⟨hcount, h⟩))]
      -- the first copy is not made already
      refine mapM_eq_none (a := 0) (List.mem_range.2 (Nat.pos_of_ne_zero hcount)) ?_
      dsimp only
      by_cases helement : element.Paddable
      · rw [Element.numbered?_eq_some helement, copiesAll?_eq_ite nested, if_neg fun hn => h ⟨helement, hn⟩]
        rfl
      · rw [Element.numbered?_eq_none helement]
        rfl

/-- The copies that are made, if all their counters can be padded, are the copies. -/
theorem copiesAll?_eq_ite : ∀ (ts : List Template) (counter : Option Nat),
    copiesAll? counter ts = if PaddableAll ts then some (copiesAll counter ts) else none
  | [], _ => rfl
  | t :: older, counter => by
    rw [copiesAll?, copiesAll?_eq_ite older, copies?_eq_ite t, copiesAll]
    by_cases hold : PaddableAll older
    · by_cases ht : t.Paddable
      · rw [if_pos hold, if_pos ht, if_pos (paddableAll_cons.2 ⟨hold, ht⟩)]
        rfl
      · rw [if_neg ht, if_neg fun h => ht (paddableAll_cons.1 h).2, if_pos hold]
        rfl
    · rw [if_neg hold, if_neg fun h => hold (paddableAll_cons.1 h).1]
      rfl

end

theorem paddableAll_attach {t : Template} (ht : t.Paddable) : ∀ (k : Nat) {ts : List Template},
    PaddableAll ts → PaddableAll (attach t k ts)
  | 0, _, h => paddableAll_cons.2 ⟨h, ht⟩
  | _ + 1, [], h => paddableAll_cons.2 ⟨h, ht⟩
  | k + 1, ⟨_, _, _⟩ :: _, h => by
    obtain ⟨hold, hnewest⟩ := paddableAll_cons.1 h
    refine paddableAll_cons.2 ⟨hold, paddable_mk.2 ((paddable_mk.1 hnewest).imp_right fun hhost => ?_)⟩
    exact ⟨hhost.1, paddableAll_attach ht k hhost.2⟩

end Template

/-! ## Assemblies -/

namespace Assembly

def Paddable (a : Assembly) : Prop := Template.PaddableAll a.templates

instance (a : Assembly) : Decidable a.Paddable := inferInstanceAs (Decidable (Template.PaddableAll _))

theorem forest_eq_ite (a : Assembly) (limit : Nat) : a.forest limit =
    if limit < Template.tallyAll a.templates then .error ⟨Template.tallyAll a.templates, limit⟩
    else if a.Paddable then .ok (Template.copiesAll none a.templates) else .aborted := by
  have hcopies : Attempt.ofOption (Template.copiesAll? none a.templates) =
      if a.Paddable then .ok (Template.copiesAll none a.templates) else .aborted (ε := Excess) := by
    rw [Template.copiesAll?_eq_ite]
    by_cases h : a.Paddable
    · rw [if_pos h, if_pos (show Template.PaddableAll a.templates from h)]
      rfl
    · rw [if_neg h, if_neg (show ¬Template.PaddableAll a.templates from h)]
      rfl
  rw [forest, hcopies]

theorem forest_eq_ok {a : Assembly} {limit : Nat} {forest : List Element}
    (h : a.forest limit = .ok forest) : forest = Template.copiesAll none a.templates := by
  rw [forest_eq_ite] at h
  split at h
  · cases h
  split at h
  · cases h
    rfl
  · cases h

theorem forest_eq_error {a : Assembly} {limit : Nat} {excess : Excess}
    (h : a.forest limit = .error excess) :
    limit < Template.tallyAll a.templates ∧ excess = ⟨Template.tallyAll a.templates, limit⟩ := by
  rw [forest_eq_ite] at h
  split at h
  · rename_i hover
    cases h
    exact ⟨hover, rfl⟩
  split at h <;> cases h

theorem paddable_push {a : Assembly} {t : Term} (ha : a.Paddable)
    (ht : ∀ e, Element.ofTerm? t = some e → e.Paddable) : (a.push t).Paddable := by
  rw [push, Paddable]
  cases helement : Element.ofTerm? t with
  | none => exact ha
  | some element =>
    refine Template.paddableAll_attach (Template.paddable_mk.2 (.inr ?_)) _ ha
    exact ⟨ht element helement, Template.paddableAll_nil⟩

/-- Where no element of a term has a counter that is too wide, nothing breaks off. -/
theorem paddable_ofTerms {terms : List Term}
    (h : ∀ t ∈ terms, ∀ e, Element.ofTerm? t = some e → e.Paddable) : (ofTerms terms).Paddable :=
  List.foldlRecOn terms push Template.paddableAll_nil fun _ ha t ht => paddable_push ha (h t ht)

/-! ## A single term -/

theorem templates_singleton {t : Term} {e : Element} (he : Element.ofTerm? t = some e) :
    (ofTerms [t]).templates = [⟨e, t.count, []⟩] := by
  rw [ofTerms, List.foldl_cons, List.foldl_nil, push, he]
  rfl

/-- The forest of a single term holds the copies of its element, if it may hold that many. It is not made
when there is a copy with a counter that is too wide. -/
theorem forest_singleton {t : Term} {e : Element} (he : Element.ofTerm? t = some e) {limit : Nat}
    (hlimit : t.count ≤ limit) : (ofTerms [t]).forest limit =
      if t.count = 0 ∨ e.Paddable then .ok (Template.copies none ⟨e, t.count, []⟩) else .aborted := by
  have htally : Template.tallyAll [⟨e, t.count, []⟩] ≤ limit := by
    have hle : Template.tally ⟨e, t.count, []⟩ ≤ t.count := by
      change min (min (1 + 0) maxTally * t.count) maxTally ≤ t.count
      rw [show min (1 + 0) maxTally = 1 from rfl, Nat.one_mul]
      exact Nat.min_le_left _ _
    change min (0 + Template.tally ⟨e, t.count, []⟩) maxTally ≤ limit
    omega
  have hpaddable : (ofTerms [t]).Paddable ↔ t.count = 0 ∨ e.Paddable := by
    rw [Paddable, templates_singleton he, Template.paddableAll_cons, Template.paddable_mk]
    simp [Template.paddableAll_nil]
  rw [forest_eq_ite, templates_singleton he, if_neg (Nat.not_lt.2 htally)]
  simp only [hpaddable]
  rfl

/-- A name with a counter that is too wide breaks the run off. -/
theorem forest_singleton_of_wide {t : Term} (hname : ¬Text.Numbering.Paddable t.name) (hcount : 0 < t.count)
    {limit : Nat} (hlimit : t.count ≤ limit) : (ofTerms [t]).forest limit = .aborted := by
  have hne : t.name ≠ [] := fun hnil => hname (hnil ▸ Text.Numbering.paddable_of_not_mem List.not_mem_nil)
  obtain ⟨e, he⟩ := Element.exists_ofTerm? hne
  rw [forest_singleton he hlimit, if_neg]
  rintro (hzero | hpaddable)
  · omega
  · exact hname (Element.tag_ofTerm? he ▸ hpaddable.1)

end Assembly
end Shorthand
