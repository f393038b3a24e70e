import Shorthand.Fragment
import Shorthand.Proofs.Group.Nesting

/-! # Cutting outside groups

What splitting aims at: a text cut before every operator that stands outside every group, the first
character excepted. Both this cut and the glued cut of `Fragment.split` are made one character at a
time, from the right; they differ only in when the next character begins a fragment of its own. -/

namespace Shorthand.Fragment
open Shorthand.Group (pendingStep pendingAfter Nested isPlain)

/-- Puts a character in front: a fragment of its own when `apart`, else the beginning of the first
fragment. -/
def putFront (apart : Bool) (c : Char) : List Text → List Text
  | f :: fs => if apart then [c] :: f :: fs else (c :: f) :: fs
  | [] => [[c]]

/-- The fragments of a text cut before each operator outside every group. The closers that are to come
at its beginning are `pending`. -/
def cutOutside (operators : List Char) : List Char → Text → List Text
  | _, [] => []
  | pending, c :: text =>
    let next := (pendingStep pending c).getD pending
    putFront (opensWith operators text && next.isEmpty) c (cutOutside operators next text)

theorem flatten_putFront (apart : Bool) (c : Char) (fs : List Text) :
    (putFront apart c fs).flatten = c :: fs.flatten := by
  cases fs <;> cases apart <;> rfl

theorem putFront_eq_cons (apart : Bool) (c : Char) (fs : List Text) :
    ∃ f rest, putFront apart c fs = (c :: f) :: rest := by
  cases fs <;> cases apart <;> exact ⟨_, _, rfl⟩

theorem cutOutside_cons (operators : List Char) {pending next : List Char} {c : Char}
    (h : pendingStep pending c = some next) (text : Text) :
    cutOutside operators pending (c :: text) =
      putFront (opensWith operators text && next.isEmpty) c (cutOutside operators next text) := by
  simp [cutOutside, h]

theorem flatten_cutOutside (operators : List Char) :
    ∀ (pending : List Char) (text : Text), (cutOutside operators pending text).flatten = text
  | _, [] => rfl
  | pending, c :: text => by
    rw [cutOutside, flatten_putFront, flatten_cutOutside operators _ text]

theorem ne_nil_of_mem_putFront {apart : Bool} {c : Char} {fs : List Text} (h : [] ∉ fs) :
    [] ∉ putFront apart c fs := by
  cases fs <;> cases apart <;> simp_all [putFront]

theorem nil_not_mem_cutOutside (operators : List Char) :
    ∀ (pending : List Char) (text : Text), [] ∉ cutOutside operators pending text
  | _, [] => List.not_mem_nil
  | _, _ :: text => ne_nil_of_mem_putFront (nil_not_mem_cutOutside operators _ text)

/-! ## Concatenation -/

theorem putFront_append (apart : Bool) (c : Char) {fs : List Text} (h : fs ≠ []) (gs : List Text) :
    putFront apart c (fs ++ gs) = putFront apart c fs ++ gs := by
  cases fs with
  | nil => exact absurd rfl h
  | cons f fs => cases apart <;> rfl

/-- An operator outside every group is cut at. -/
theorem cutOutside_append_of_opensWith (operators : List Char) {v : Text}
    (hv : opensWith operators v = true) :
    ∀ {pending : List Char} {u : Text}, u ≠ [] → pendingAfter pending u = some [] →
      cutOutside operators pending (u ++ v) = cutOutside operators pending u ++ cutOutside operators [] v
  | _, [], hu, _ => absurd rfl hu
  | pending, c :: u, _, h => by
    rw [Group.pendingAfter_cons] at h
    obtain ⟨next, hn, hu⟩ := Option.bind_eq_some_iff.1 h
    rw [List.cons_append, cutOutside_cons operators hn, cutOutside_cons operators hn]
    cases u with
    | nil =>
      cases hu
      obtain ⟨f, fs, hf⟩ : ∃ f fs, cutOutside operators [] v = f :: fs :=
        List.exists_cons_of_ne_nil fun he => by
          rw [← flatten_cutOutside operators [] v, he] at hv
          cases hv
      simp [hv, hf, putFront, cutOutside]
    | cons d u =>
      rw [cutOutside_append_of_opensWith operators hv (List.cons_ne_nil d u) hu,
        putFront_append _ _ fun he => ?_]
      · rfl
      · have := flatten_cutOutside operators next (d :: u)
        rw [he] at this
        cases this

theorem putFront_eq_singleton {apart : Bool} {c d : Char} {u : Text} {fs : List Text}
    (h : putFront apart c fs = [c :: d :: u]) : apart = false ∧ fs = [d :: u] := by
  cases fs with
  | nil => cases h
  | cons f fs => cases apart <;> simp_all [putFront]

/-- Two whole texts are one when nothing is to be cut between them. -/
theorem cutOutside_append_of_whole (operators : List Char) {v : Text} {rest : List Char}
    (hv : cutOutside operators rest v = [v])
    (hcut : rest ≠ [] ∨ opensWith operators v = false) :
    ∀ {pending : List Char} {u : Text}, pendingAfter pending u = some rest →
      (u ≠ [] → cutOutside operators pending u = [u]) →
      cutOutside operators pending (u ++ v) = [u ++ v]
  | _, [], h, _ => by cases h; exact hv
  | pending, c :: u, h, hu => by
    have hu := hu (List.cons_ne_nil c u)
    rw [Group.pendingAfter_cons] at h
    obtain ⟨next, hn, hr⟩ := Option.bind_eq_some_iff.1 h
    rw [cutOutside_cons operators hn] at hu
    rw [List.cons_append, cutOutside_cons operators hn]
    cases u with
    | nil =>
      cases hr
      rcases hcut with hne | hno
      · simp [hv, putFront, hne]
      · simp [hv, putFront, hno]
    | cons d u =>
      obtain ⟨hapart, hwhole⟩ := putFront_eq_singleton hu
      have hopens : opensWith operators (d :: u ++ v) = opensWith operators (d :: u) := rfl
      rw [hopens, hapart, cutOutside_append_of_whole operators hv hcut hr fun _ => hwhole]
      rfl

theorem cutOutside_of_isPlain (operators : List Char) :
    ∀ {text : Text} {pending : List Char}, text ≠ [] → (∀ c ∈ text, isPlain c = true) →
      (pending ≠ [] ∨ ∀ c ∈ text.tail, operators.contains c = false) →
      cutOutside operators pending text = [text]
  | [], _, h, _, _ => absurd rfl h
  | [c], pending, _, h, _ => by
    rw [cutOutside_cons operators (Group.pendingStep_of_isPlain (h c List.mem_cons_self) pending)]
    rfl
  | c :: d :: text, pending, _, h, ho => by
    rw [cutOutside_cons operators (Group.pendingStep_of_isPlain (h c List.mem_cons_self) pending),
      cutOutside_of_isPlain operators (List.cons_ne_nil d text)
        (fun e he => h e (List.mem_cons_of_mem c he))
        (ho.imp id fun ho e he => ho e (List.mem_cons_of_mem d he))]
    have hd : (opensWith operators (d :: text) && pending.isEmpty) = false := by
      rcases ho with ho | ho
      · simp [ho]
      · have hd : opensWith operators (d :: text) = false := ho d List.mem_cons_self
        rw [hd, Bool.false_and]
    rw [hd]
    rfl

/-- Nothing is cut while a closer is to come. -/
theorem cutOutside_group (operators : List Char) {opener closer : Char}
    (hg : (opener, closer) ∈ Delimiter.groups) {inner : Text} (h : ∀ c ∈ inner, isPlain c = true) :
    cutOutside operators [] (opener :: inner ++ [closer]) = [opener :: inner ++ [closer]] := by
  have hinner : cutOutside operators [closer] (inner ++ [closer]) = [inner ++ [closer]] :=
    cutOutside_append_of_whole operators rfl (.inl (List.cons_ne_nil closer []))
      (Group.pendingAfter_of_isPlain h [closer])
      fun hne => cutOutside_of_isPlain operators hne h (.inl (List.cons_ne_nil closer []))
  rw [List.cons_append, cutOutside_cons operators (Group.pendingStep_opener hg []), hinner]
  simp [putFront]

/-! ## Where the fragments meet -/

/-- Fragments that make up the text and meet exactly in front of the operators that stand outside every
group and are not its first character. -/
structure CutsOutside (operators : List Char) (text : Text) (fs : List Text) : Prop where
  nil_not_mem : [] ∉ fs
  flatten_eq : fs.flatten = text
  meet_iff : ∀ u v, text = u ++ v → u ≠ [] → v ≠ [] →
    ((∃ gs hs, fs = gs ++ hs ∧ gs.flatten = u) ↔
      opensWith operators v = true ∧ pendingAfter [] u = some [])

theorem outside_of_meet (operators : List Char) :
    ∀ {pending rest : List Char} {u v : Text} {gs hs : List Text}, u ≠ [] → v ≠ [] →
      pendingAfter pending (u ++ v) = some rest →
      cutOutside operators pending (u ++ v) = gs ++ hs → gs.flatten = u →
      opensWith operators v = true ∧ pendingAfter pending u = some []
  | _, _, [], _, _, _, hu, _, _, _, _ => absurd rfl hu
  | pending, rest, c :: u, v, gs, hs, _, hv, h, he, hflat => by
    rw [List.cons_append, Group.pendingAfter_cons] at h
    obtain ⟨next, hn, hr⟩ := Option.bind_eq_some_iff.1 h
    have hne : cutOutside operators next (u ++ v) ≠ [] := fun hnil => by
      have := flatten_cutOutside operators next (u ++ v)
      rw [hnil] at this
      exact hv (List.append_eq_nil_iff.1 this.symm).2
    obtain ⟨f, fs, hf⟩ := List.exists_cons_of_ne_nil hne
    rw [List.cons_append, cutOutside_cons operators hn, hf] at he
    have hnil : [] ∉ f :: fs := hf ▸ nil_not_mem_cutOutside operators next (u ++ v)
    rw [Group.pendingAfter_cons, hn, Option.bind_some]
    cases gs with
    | nil => cases hflat
    | cons g gs =>
      cases hapart : (opensWith operators (u ++ v) && next.isEmpty) with
      | true =>
        rw [hapart] at he
        obtain ⟨rfl, hrest⟩ := List.cons.inj he
        obtain ⟨hopens, hempty⟩ := Bool.and_eq_true_iff.1 hapart
        have hu : gs.flatten = u := (List.cons.inj hflat).2
        cases u with
        | nil => exact ⟨hopens, by rw [List.isEmpty_iff.1 hempty]; rfl⟩
        | cons d u =>
          exact outside_of_meet operators (List.cons_ne_nil d u) hv hr (hf.trans hrest) hu
      | false =>
        rw [hapart] at he
        obtain ⟨rfl, hrest⟩ := List.cons.inj he
        have hu : (f :: gs).flatten = u := (List.cons.inj hflat).2
        cases u with
        | nil =>
          obtain ⟨rfl, -⟩ := List.append_eq_nil_iff.1 hu
          exact absurd List.mem_cons_self hnil
        | cons d u =>
          have hmore : cutOutside operators next (d :: u ++ v) = f :: gs ++ hs :=
            hf.trans (congrArg (f :: ·) hrest)
          exact outside_of_meet operators (List.cons_ne_nil d u) hv hr hmore hu

theorem cutsOutside_cutOutside (operators : List Char) {text : Text} (h : Nested text) :
    CutsOutside operators text (cutOutside operators [] text) where
  nil_not_mem := nil_not_mem_cutOutside operators [] text
  flatten_eq := flatten_cutOutside operators [] text
  meet_iff u v he hu hv := by
    subst he
    refine ⟨fun ⟨gs, hs, hcut, hflat⟩ => outside_of_meet operators hu hv h hcut hflat, ?_⟩
    rintro ⟨hopens, hout⟩
    exact ⟨_, _, cutOutside_append_of_opensWith operators hopens hu hout,
      flatten_cutOutside operators [] u⟩

end Shorthand.Fragment
