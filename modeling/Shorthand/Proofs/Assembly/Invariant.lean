import Shorthand.Proofs.Assembly.Counters
import Shorthand.Proofs.Text.Numbering

/-! # What is always true of elements

No operation gives an element both a text and children, or one attribute name twice, whatever it is applied
to; so nothing that operations make from each other ever has either, at any depth. Elements of a forest also
have a tag, and no counters are left in them. Main statement: `made_sound`. -/

namespace Shorthand

namespace Element

structure Sound (e : Element) : Prop where
  exclusive : e.text = none ∨ e.children = []
  distinct : (e.attributes.map (·.1)).Nodup

def SoundThroughout (e : Element) : Prop := ∀ position node, e.at? position = some node → node.Sound

/-- Elements that the operations make, in any order and from each other. -/
inductive Made : Element → Prop where
  | root : Made .root
  | create {name : Text} {e : Element} (created : create? name = some e) : Made e
  | ofTerm {t : Term} {e : Element} (asked : ofTerm? t = some e) : Made e
  | setAttribute {e : Element} (name value : Text) (made : Made e) : Made (e.setAttribute name value)
  | setText {e : Element} (text : Text) (made : Made e) : Made (e.setText text)
  | pushChild {e child : Element} (made : Made e) (madeChild : Made child) : Made (e.pushChild child)
  | numbered {e : Element} (index : Nat) (made : Made e) : Made (e.numbered index)

/-! ## Operations one by one -/

theorem SoundThroughout.sound {e : Element} (h : e.SoundThroughout) : e.Sound := h [] e rfl

theorem SoundThroughout.child {e c : Element} (h : e.SoundThroughout) (hc : c ∈ e.children) :
    c.SoundThroughout := by
  intro position node hnode
  obtain ⟨i, hi⟩ := List.getElem?_of_mem hc
  refine h (i :: position) node ?_
  rw [at?, hi]
  exact hnode

theorem Sound.throughout {e : Element} (h : e.Sound) (hchildren : ∀ c ∈ e.children, c.SoundThroughout) :
    e.SoundThroughout := by
  intro position node hnode
  cases position with
  | nil =>
    cases hnode
    exact h
  | cons i position =>
    obtain ⟨c, hc, hnode⟩ := Option.bind_eq_some_iff.1 hnode
    exact hchildren c (List.mem_of_getElem? hc) position node hnode

/-- An element without children is sound when its attributes are distinct. -/
theorem soundThroughout_of_leaf {e : Element} (hchildren : e.children = [])
    (hdistinct : (e.attributes.map (·.1)).Nodup) : e.SoundThroughout := by
  refine Sound.throughout ⟨.inr hchildren, hdistinct⟩ ?_
  rw [hchildren]
  exact nofun

theorem SoundThroughout.setAttribute {e : Element} (h : e.SoundThroughout) (name value : Text) :
    (e.setAttribute name value).SoundThroughout :=
  Sound.throughout ⟨h.sound.exclusive, nodup_assign h.sound.distinct⟩ fun _ => h.child

theorem SoundThroughout.setText {e : Element} (h : e.SoundThroughout) (text : Text) :
    (e.setText text).SoundThroughout := by
  unfold Element.setText
  split
  · rename_i hempty
    exact soundThroughout_of_leaf (List.isEmpty_iff.1 hempty) h.sound.distinct
  · exact h

theorem SoundThroughout.pushChild {e child : Element} (h : e.SoundThroughout)
    (hchild : child.SoundThroughout) : (e.pushChild child).SoundThroughout := by
  refine Sound.throughout ⟨.inl rfl, h.sound.distinct⟩ fun c hc => ?_
  rcases List.mem_append.1 hc with hc | hc
  · exact h.child hc
  · rw [List.mem_singleton.1 hc]
    exact hchild

theorem IsNumbered.map_fst {e original : Element} {index : Nat} (h : e.IsNumbered index original) :
    e.attributes.map (·.1) = original.attributes.map (·.1) := by
  rw [h.attributes, List.map_map]
  rfl

theorem isNumbered_numbered (index : Nat) (e : Element) : (e.numbered index).IsNumbered index e :=
  ⟨rfl, rfl, rfl⟩

theorem SoundThroughout.numbered {e : Element} (h : e.SoundThroughout) (index : Nat) :
    (e.numbered index).SoundThroughout := by
  refine soundThroughout_of_leaf rfl ?_
  rw [(isNumbered_numbered index e).map_fst]
  exact h.sound.distinct

theorem soundThroughout_create? {name : Text} {e : Element} (h : create? name = some e) :
    e.SoundThroughout := by
  unfold create? at h
  split at h
  · cases h
  · cases h
    exact soundThroughout_of_leaf rfl .nil

theorem SoundThroughout.apply {e : Element} (h : e.SoundThroughout) (m : Modifier) :
    (e.apply m).SoundThroughout := by
  unfold Element.apply
  split
  · exact h.setText _
  · exact List.foldlRecOn _ _ h fun _ he a _ => he.setAttribute a.1 a.2

theorem SoundThroughout.withPlaceholders {e : Element} (h : e.SoundThroughout) :
    e.withPlaceholders.SoundThroughout := by
  unfold Element.withPlaceholders
  split
  · refine List.foldlRecOn _ _ h fun e he name _ => ?_
    unfold assignIfMissing
    split
    · exact he.setAttribute name []
    · exact he
  · exact h

theorem soundThroughout_ofTerm? {t : Term} {e : Element} (h : ofTerm? t = some e) :
    e.SoundThroughout := by
  obtain ⟨blank, hblank, rfl⟩ := Option.map_eq_some_iff.1 h
  have hmodified : (t.modifiers.foldl apply blank).SoundThroughout :=
    List.foldlRecOn _ _ (soundThroughout_create? hblank) fun _ he m _ => he.apply m
  exact hmodified.withPlaceholders

theorem Made.soundThroughout {e : Element} (h : Made e) : e.SoundThroughout := by
  induction h with
  | root => exact soundThroughout_of_leaf rfl .nil
  | create created => exact soundThroughout_create? created
  | ofTerm asked => exact soundThroughout_ofTerm? asked
  | setAttribute name value _ ih => exact ih.setAttribute name value
  | setText text _ ih => exact ih.setText text
  | pushChild _ _ ih ihChild => exact ih.pushChild ihChild
  | numbered index _ ih => exact ih.numbered index

/-! ## Elements of a forest -/

theorem IsNumbered.sound {e original : Element} {index : Nat} (h : e.IsNumbered index original)
    (horiginal : original.Sound) : e.Sound where
  exclusive := by
    rw [h.text]
    split
    · rename_i hempty
      exact .inr (List.isEmpty_iff.1 hempty)
    · exact .inl rfl
  distinct := by
    rw [h.map_fst]
    exact horiginal.distinct

theorem IsNumbered.uncounted {e original : Element} {index : Nat} (h : e.IsNumbered index original) :
    e.Uncounted where
  tag := by
    rw [h.tag]
    exact Text.Numbering.not_mem_number index original.tag
  values := by
    rw [h.attributes]
    exact List.forall_mem_map.2 fun a _ => Text.Numbering.not_mem_number index a.2
  text := by
    rw [h.text]
    split
    · intro content hcontent
      obtain ⟨own, -, rfl⟩ := Option.map_eq_some_iff.1 hcontent
      exact Text.Numbering.not_mem_number index own
    · exact nofun

theorem IsNumbered.tag_ne_nil {e original : Element} {index : Nat} (h : e.IsNumbered index original)
    (htag : original.tag ≠ []) : e.tag ≠ [] := by
  have hle := Text.Numbering.length_le_number index original.tag
  rw [h.tag, ← List.length_pos_iff]
  exact Nat.lt_of_lt_of_le (List.length_pos_iff.2 htag) hle

end Element

namespace Assembly
open Element (Made Sound Uncounted)

/-- **What operations make is sound at every depth**: no element has both a text and children, and none has
an attribute twice. Of every forest that is made, and at every depth, the elements moreover have a tag and
hold no counter in their tags, values and texts. -/
theorem made_sound :
    (∀ e, Made e → ∀ position node, e.at? position = some node → node.Sound) ∧
    ∀ terms limit forest, (ofTerms terms).forest limit = .ok forest →
      ∀ position node, position ≠ [] → (tree forest).at? position = some node →
        node.Sound ∧ node.tag ≠ [] ∧ node.Uncounted := by
  refine ⟨fun e he => he.soundThroughout, fun terms limit forest h position node hne hnode => ?_⟩
  have hforest : (tree forest).children = Template.copiesAll none (ofTerms terms).templates :=
    forest_eq_ok h
  -- the element is a numbered copy of the element of one of the terms
  obtain ⟨copies, hlineage⟩ := Template.exists_lineage hforest hnode
  obtain ⟨copy, outer, rfl⟩ := List.exists_cons_of_ne_nil (mt hlineage.copies_eq_nil_iff.1 hne)
  obtain ⟨t, -, hterm, -⟩ := exists_term_of_lineage hlineage copy List.mem_cons_self
  obtain ⟨e, he, hnumbered⟩ := Template.exists_isNumbered hlineage rfl hforest rfl
  obtain rfl : node = e := Option.some.inj (hnode.symm.trans he)
  have htag : copy.label.1.tag ≠ [] := by
    rw [Element.tag_ofTerm? hterm]
    intro hnil
    rw [Element.ofTerm?_eq_none_iff.2 (List.isEmpty_iff.2 hnil)] at hterm
    cases hterm
  exact ⟨hnumbered.sound (Element.soundThroughout_ofTerm? hterm).sound, hnumbered.tag_ne_nil htag,
    hnumbered.uncounted⟩

/-- An element with a text that is pushed a child, gets a text again and one attribute twice. -/
def overwritten : Element :=
  (((((Element.setText "old".toList { tag := "a".toList }).setAttribute "k".toList "1".toList).pushChild
    (Element.setText "$".toList .root)).setText "new".toList).setAttribute "k".toList "2".toList)

/-- The terms of `$#a$*2{$}>b[a=$ a=$$]{$$}`. -/
def numberedTwice : List Term :=
  [{ name := "$".toList, count := 2, modifiers := [.id "a$".toList, .text "$".toList] },
    { operator := .child, name := "b".toList,
      modifiers := [.attributes "a=$ a=$$".toList, .text "$$".toList] }]

theorem made_sound_overwritten :
    Made overwritten ∧ overwritten.text = none ∧ overwritten.attributes = [("k".toList, "2".toList)] ∧
    Sound overwritten ∧ Sound (Element.setText "$".toList .root) ∧
    ∃ forest, (ofTerms numberedTwice).forest 4 = .ok forest ∧ (tree forest).at? [1, 0] = some
        { tag := "b".toList, attributes := [("a".toList, "02".toList)], text := some "02".toList } ∧
      Uncounted { tag := "b".toList, attributes := [("a".toList, "02".toList)], text := some "02".toList } := by
  have hmade : Made overwritten :=
    .setAttribute _ _ (.setText _ (.pushChild (.setAttribute _ _ (.setText _ (@Made.create "a".toList _ rfl)))
      (.setText _ .root)))
  obtain ⟨hsound, hforest⟩ := made_sound
  exact ⟨hmade, rfl, rfl, hsound _ hmade [] _ rfl, hsound _ hmade [0] _ rfl,
    _, rfl, rfl, (hforest numberedTwice 4 _ rfl [1, 0] _ nofun rfl).2.2⟩

end Assembly
end Shorthand
