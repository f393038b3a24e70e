import Shorthand.Proofs.Fragment.Outside

/-! # When operators inside groups never cut

`Fragment.glue` undoes a cut by looking at one fragment alone: it is glued back when it holds a closer
without any opener of that kind. A fragment of the cut outside groups survives this exactly when it is
`Sealed`: behind each of its operators it has a closer of some kind and no opener of that kind. So
splitting keeps operators inside groups out of play exactly for texts whose fragments are sealed, and
a group that holds another one of its kind, or has one of its kind beside it, need not be. -/

namespace Shorthand.Fragment
open Shorthand.Group (pendingStep pendingAfter Nested)

/-- Behind each operator but the first character stand a closer of some kind and no opener of that
kind. -/
def Sealed (operators : List Char) (fragment : Text) : Prop :=
  ∀ u v, fragment = u ++ v → u ≠ [] → opensWith operators v = true →
    ∃ group ∈ Delimiter.groups, group.2 ∈ v ∧ group.1 ∉ v

theorem continuesGroup_iff {f : Text} : continuesGroup f = true ↔
    ∃ group ∈ Delimiter.groups, group.2 ∈ f ∧ group.1 ∉ f := by
  simp [continuesGroup]

/-- What is cut outside groups never continues one. -/
theorem not_continuesGroup {rest : List Char} {f g : Text}
    (h : pendingAfter [] (f ++ g) = some rest) : continuesGroup f = false := by
  rw [Group.pendingAfter_append] at h
  obtain ⟨next, hf, -⟩ := Option.bind_eq_some_iff.1 h
  rw [Bool.eq_false_iff]
  intro hc
  obtain ⟨⟨opener, closer⟩, hg, hcloser, hopener⟩ := continuesGroup_iff.1 hc
  exact hopener (Group.mem_opener_of_mem_closer hg hf hcloser)

/-! ## Gluing one character at a time -/

theorem exists_cut_cons (operators : List Char) (c : Char) (text : Text) :
    ∃ f fs, cut operators (c :: text) = (c :: f) :: fs := by
  simp only [cut, List.foldr_cons, cutStep]
  split
  · split <;> exact ⟨_, _, rfl⟩
  · exact ⟨_, _, rfl⟩

theorem exists_glueStep (c : Char) (f : Text) (fs : List Text) :
    ∃ g gs, glueStep (c :: f) fs = (c :: g) :: gs := by
  unfold glueStep
  split
  · split <;> exact ⟨_, _, rfl⟩
  · exact ⟨_, _, rfl⟩

theorem exists_glue_cut_cons (operators : List Char) (c : Char) (text : Text) :
    ∃ g gs, glue (cut operators (c :: text)) = (c :: g) :: gs := by
  obtain ⟨f, fs, hf⟩ := exists_cut_cons operators c text
  exact hf ▸ exists_glueStep c f (glue fs)

/-- A character in front begins a fragment of its own when an operator follows it and the fragment of
that operator does not continue a group. -/
theorem glue_cut_cons (operators : List Char) (c : Char) (text : Text) :
    glue (cut operators (c :: text)) =
      putFront (opensWith operators text && !continuesGroup ((glue (cut operators text)).headD []))
        c (glue (cut operators text)) := by
  cases text with
  | nil => rfl
  | cons d text =>
    obtain ⟨f, fs, hf⟩ := exists_cut_cons operators d text
    have hcut : cut operators (c :: d :: text) = cutStep operators c (cut operators (d :: text)) := rfl
    have hopens : opensWith operators (d :: f) = opensWith operators (d :: text) := rfl
    have hglue : glue ((d :: f) :: fs) = glueStep (d :: f) (glue fs) := rfl
    rw [hcut, hf, cutStep, hopens]
    cases opensWith operators (d :: text) with
    | true =>
      have hstep : glue ([c] :: (d :: f) :: fs) = glueStep [c] (glue ((d :: f) :: fs)) := rfl
      rw [if_pos rfl, hstep]
      obtain ⟨g, gs, hg⟩ := exists_glueStep d f (glue fs)
      rw [hglue, hg]
      cases hc : continuesGroup (d :: g) <;> simp [glueStep, putFront, hc]
    | false =>
      have hstep : glue ((c :: d :: f) :: fs) = glueStep (c :: d :: f) (glue fs) := rfl
      rw [if_neg Bool.false_ne_true, hstep, hglue]
      simp only [glueStep]
      split
      · split <;> rfl
      · rfl

/-! ## The glued cut against the cut outside groups -/

theorem sealed_singleton (operators : List Char) (c : Char) : Sealed operators [c] := by
  intro u v h hu hv
  obtain ⟨d, u, rfl⟩ := List.exists_cons_of_ne_nil hu
  obtain ⟨-, hnil⟩ := List.cons.inj h
  rw [(List.append_eq_nil_iff.1 hnil.symm).2] at hv
  cases hv

theorem sealed_cons_iff {operators : List Char} {c : Char} {f : Text} :
    Sealed operators (c :: f) ↔
      Sealed operators f ∧ (opensWith operators f = true → continuesGroup f = true) := by
  constructor
  · intro h
    refine ⟨fun u v he _ hv => h (c :: u) v (by rw [he]; rfl) (List.cons_ne_nil c u) hv, fun hf => ?_⟩
    exact continuesGroup_iff.2 (h [c] f rfl (List.cons_ne_nil c []) hf)
  · rintro ⟨hs, hf⟩ u v he hu hv
    obtain ⟨d, u, rfl⟩ := List.exists_cons_of_ne_nil hu
    obtain ⟨-, rfl⟩ := List.cons.inj he
    cases u with
    | nil => exact continuesGroup_iff.1 (hf hv)
    | cons e u => exact hs (e :: u) v rfl (List.cons_ne_nil e u) hv

/-- One more character keeps two cuts equal exactly when the second one leaves a fragment together only
where the first one glues it. -/
theorem putFront_eq_putFront_iff {opens outermost : Bool} (c : Char) {f g : Text} {fs gs : List Text}
    (hf : f ≠ []) (hout : outermost = true → g :: gs = f :: fs → continuesGroup f = false) :
    putFront (opens && !continuesGroup g) c (g :: gs) = putFront (opens && outermost) c (f :: fs) ↔
      g :: gs = f :: fs ∧ (opens = true → outermost = false → continuesGroup f = true) := by
  cases opens with
  | false => simp [putFront]
  | true =>
    have hnil : continuesGroup [] = false := rfl
    cases outermost with
    | true =>
      cases hg : continuesGroup g with
      | true =>
        constructor
        · intro h
          simp only [putFront, Bool.not_true, Bool.and_false, Bool.and_true, if_true,
            Bool.false_eq_true, if_false, List.cons.injEq, true_and] at h
          rw [h.1, hnil] at hg
          cases hg
        · rintro ⟨h, -⟩
          obtain ⟨rfl, rfl⟩ := List.cons.inj h
          rw [hout rfl rfl] at hg
          cases hg
      | false => simp [putFront]
    | false =>
      cases hg : continuesGroup g with
      | true =>
        simp only [putFront, Bool.not_true, Bool.and_false, Bool.false_eq_true, if_false,
          List.cons.injEq, true_and, forall_const]
        exact ⟨fun h => ⟨h, h.1 ▸ hg⟩, And.left⟩
      | false =>
        constructor
        · intro h
          simp only [putFront, Bool.not_false, Bool.and_true, if_true, Bool.and_false,
            Bool.false_eq_true, if_false, List.cons.injEq, true_and] at h
          exact absurd h.1.symm hf
        · rintro ⟨h, hc⟩
          obtain ⟨rfl, rfl⟩ := List.cons.inj h
          rw [hc rfl rfl] at hg
          cases hg

theorem sealed_putFront_iff {operators : List Char} {outermost : Bool} {c : Char} {f : Text}
    {fs : List Text} :
    (∀ x ∈ putFront (opensWith operators f && outermost) c (f :: fs), Sealed operators x) ↔
      (∀ x ∈ f :: fs, Sealed operators x) ∧
        (opensWith operators f = true → outermost = false → continuesGroup f = true) := by
  cases hf : opensWith operators f with
  | false => simp [putFront, sealed_cons_iff, hf]
  | true =>
    cases outermost with
    | true => simp [putFront, sealed_singleton]
    | false =>
      simp only [putFront, Bool.and_false, Bool.false_eq_true, if_false, List.mem_cons,
        forall_eq_or_imp, sealed_cons_iff, hf, forall_const]
      exact and_right_comm

/-- The fragments of a text that is read without getting stuck are those cut outside groups exactly
when these are sealed. -/
theorem glue_cut_eq_iff (operators : List Char) :
    ∀ {pending rest : List Char} {text : Text}, pendingAfter pending text = some rest →
      (glue (cut operators text) = cutOutside operators pending text ↔
        ∀ f ∈ cutOutside operators pending text, Sealed operators f)
  | _, _, [], _ => by simp [cut, glue, cutOutside]
  | pending, rest, [c], h => by
    rw [Group.pendingAfter_cons] at h
    obtain ⟨next, hn, -⟩ := Option.bind_eq_some_iff.1 h
    rw [cutOutside_cons operators hn]
    simp [cut, glue, cutStep, glueStep, cutOutside, putFront, sealed_singleton]
  | pending, rest, c :: d :: text, h => by
    rw [Group.pendingAfter_cons] at h
    obtain ⟨next, hn, hr⟩ := Option.bind_eq_some_iff.1 h
    have ih := glue_cut_eq_iff operators hr
    obtain ⟨f, fs, hf⟩ := putFront_eq_cons _ d (cutOutside operators _ text)
    have hout : cutOutside operators next (d :: text) = (d :: f) :: fs := hf
    have hflat := flatten_cutOutside operators next (d :: text)
    obtain ⟨g, gs, hg⟩ := exists_glue_cut_cons operators d text
    have hopens : opensWith operators (d :: text) = opensWith operators (d :: f) := rfl
    rw [hout] at ih hflat
    rw [hg] at ih
    rw [glue_cut_cons, cutOutside_cons operators hn, hg, hout, hopens, sealed_putFront_iff, ← ih]
    refine putFront_eq_putFront_iff c (List.cons_ne_nil d f) fun hempty _ => ?_
    -- a fragment that begins outside groups closes all it opens, so it is not glued
    obtain rfl : next = [] := List.isEmpty_iff.1 hempty
    rw [← hflat] at hr
    exact not_continuesGroup hr

/-! ## Folding lone climbs hides no cut -/

/-- Each fragment begins outside groups when the closers to come before the first one are `pending`. -/
def StartOutside : List Char → List Text → Prop
  | _, [] => True
  | pending, f :: fs => pending = [] ∧ ∀ next, pendingAfter pending f = some next → StartOutside next fs

theorem startOutside_foldClimbs_iff {pending : List Char} {fs : List Text} :
    StartOutside pending (foldClimbs fs) ↔ StartOutside pending fs := by
  induction fs generalizing pending with
  | nil => rfl
  | cons f fs ih =>
    have hfold : foldClimbs (f :: fs) = climbStep f (foldClimbs fs) := rfl
    rw [hfold, StartOutside]
    simp only [← ih]
    cases foldClimbs fs with
    | nil => simp [climbStep, StartOutside]
    | cons n ns =>
      by_cases hf : f = [Delimiter.climb]
      · -- a climb leaves what is to come as it is
        have hclimb : pendingAfter [] f = some [] := by rw [hf]; decide
        have happ : pendingAfter [] (f ++ n) = pendingAfter [] n := by
          rw [Group.pendingAfter_append, hclimb, Option.bind_some]
        rw [climbStep, if_pos hf, StartOutside]
        constructor
        · rintro ⟨rfl, h⟩
          refine ⟨rfl, fun next hn => ?_⟩
          rw [hclimb] at hn
          cases hn
          exact ⟨rfl, fun next hn => h next (happ.trans hn)⟩
        · rintro ⟨rfl, h⟩
          exact ⟨rfl, fun next hn => (h [] hclimb).2 next (happ.symm.trans hn)⟩
      · rw [climbStep, if_neg hf, StartOutside]

theorem tailOutside_putFront_iff {pending next : List Char} {c : Char} {apart : Bool} {f : Text}
    {fs : List Text} (hn : pendingStep pending c = some next) :
    (∀ g gs, putFront apart c (f :: fs) = g :: gs → ∀ rest, pendingAfter pending g = some rest →
        StartOutside rest gs) ↔
      (apart = true → next = []) ∧ ∀ rest, pendingAfter next f = some rest → StartOutside rest fs := by
  have hone : pendingAfter pending [c] = some next := by
    rw [Group.pendingAfter_cons, hn]; rfl
  have hmore : pendingAfter pending (c :: f) = pendingAfter next f := by
    rw [Group.pendingAfter_cons, hn]; rfl
  cases apart with
  | true =>
    constructor
    · intro h
      obtain ⟨hempty, hrest⟩ := h [c] (f :: fs) rfl next hone
      exact ⟨fun _ => hempty, hrest⟩
    · rintro ⟨hempty, hrest⟩ g gs he rest hr
      cases he
      rw [hone] at hr
      cases hr
      exact ⟨hempty rfl, hrest⟩
  | false =>
    constructor
    · exact fun h => ⟨nofun, fun rest hr => h (c :: f) fs rfl rest (hmore.trans hr)⟩
    · rintro ⟨-, hrest⟩ g gs he rest hr
      cases he
      exact hrest rest (hmore.symm.trans hr)

theorem tailOutside_cutOutside (operators : List Char) :
    ∀ {pending rest : List Char} {text : Text}, pendingAfter pending text = some rest →
      ∀ g gs, cutOutside operators pending text = g :: gs →
        ∀ next, pendingAfter pending g = some next → StartOutside next gs
  | _, _, [], _ => nofun
  | pending, _, [c], h => by
    rw [Group.pendingAfter_cons] at h
    obtain ⟨next, hn, -⟩ := Option.bind_eq_some_iff.1 h
    rw [cutOutside_cons operators hn]
    intro g gs he rest _
    cases he
    trivial
  | pending, _, c :: d :: text, h => by
    rw [Group.pendingAfter_cons] at h
    obtain ⟨next, hn, hr⟩ := Option.bind_eq_some_iff.1 h
    obtain ⟨f, fs, hf⟩ := putFront_eq_cons _ d (cutOutside operators _ text)
    have hout : cutOutside operators next (d :: text) = (d :: f) :: fs := hf
    rw [cutOutside_cons operators hn, hout, tailOutside_putFront_iff hn]
    refine ⟨fun hapart => ?_, tailOutside_cutOutside operators hr _ _ hout⟩
    exact List.isEmpty_iff.1 (Bool.and_eq_true_iff.1 hapart).2

/-- Where no glued fragment begins inside a group, all cuts inside groups are undone. -/
theorem glue_cut_eq_of_tailOutside (operators : List Char) :
    ∀ {pending rest : List Char} {text : Text}, pendingAfter pending text = some rest →
      (∀ g gs, glue (cut operators text) = g :: gs →
        ∀ next, pendingAfter pending g = some next → StartOutside next gs) →
      glue (cut operators text) = cutOutside operators pending text
  | _, _, [], _, _ => rfl
  | pending, _, [c], h, _ => by
    rw [Group.pendingAfter_cons] at h
    obtain ⟨next, hn, -⟩ := Option.bind_eq_some_iff.1 h
    rw [cutOutside_cons operators hn]
    rfl
  | pending, _, c :: d :: text, h, htail => by
    rw [Group.pendingAfter_cons] at h
    obtain ⟨next, hn, hr⟩ := Option.bind_eq_some_iff.1 h
    obtain ⟨g, gs, hg⟩ := exists_glue_cut_cons operators d text
    rw [glue_cut_cons, hg, tailOutside_putFront_iff hn] at htail
    obtain ⟨hapart, htail⟩ := htail
    have ih := glue_cut_eq_of_tailOutside operators hr fun g' gs' he => by
      rw [hg] at he
      cases he
      exact htail
    rw [glue_cut_cons, cutOutside_cons operators hn, ← ih, hg]
    refine (putFront_eq_putFront_iff c (List.cons_ne_nil d g) fun hempty _ => ?_).2 ⟨rfl, ?_⟩
    · obtain rfl : next = [] := List.isEmpty_iff.1 hempty
      rw [← flatten_cut operators (d :: text), ← flatten_glue, hg] at hr
      exact not_continuesGroup hr
    · intro hopens hinside
      cases hc : continuesGroup (d :: g) with
      | true => rfl
      | false =>
        have hnext := hapart (by rw [hopens, List.headD_cons, hc]; rfl)
        rw [hnext] at hinside
        cases hinside

theorem split_eq_iff_sealed (operators : List Char) {text : Text} (h : Nested text) :
    split operators text = foldClimbs (cutOutside operators [] text) ↔
      ∀ f ∈ cutOutside operators [] text, Sealed operators f := by
  rw [← glue_cut_eq_iff operators h]
  refine ⟨fun heq => glue_cut_eq_of_tailOutside operators h ?_, fun heq => by rw [split, heq]⟩
  have hstart : StartOutside [] (glue (cut operators text)) := by
    rw [← startOutside_foldClimbs_iff]
    change StartOutside [] (split operators text)
    rw [heq, startOutside_foldClimbs_iff]
    cases hout : cutOutside operators [] text with
    | nil => trivial
    | cons g gs => exact ⟨rfl, tailOutside_cutOutside operators h g gs hout⟩
  intro g gs hg
  rw [hg] at hstart
  exact hstart.2

/-- **Operators inside groups never cut exactly when all fragments are sealed.** The cut outside groups
meets just in front of the operators that stand outside every group and are not the first character. A
nested text is split there and nowhere else, lone climbs folded into what follows them, if and only if
behind every operator inside one of these fragments the fragment has a closer of some kind without any
further opener of that kind. -/
theorem split_cuts_only_outside_iff (operators : List Char) {text : Text} (h : Nested text) :
    CutsOutside operators text (cutOutside operators [] text) ∧
      (split operators text = foldClimbs (cutOutside operators [] text) ↔
        ∀ f ∈ cutOutside operators [] text, Sealed operators f) :=
  ⟨cutsOutside_cutOutside operators h, split_eq_iff_sealed operators h⟩

/-- Groups of both kinds side by side and nested in one another, with operators in all of them. -/
theorem sealed_of_mixed_groups :
    Nested "tb[a>b{c^d}]{e+f}^^btn{g>h}".toList ∧
      ∀ f ∈ cutOutside Delimiter.structural [] "tb[a>b{c^d}]{e+f}^^btn{g>h}".toList,
        Sealed Delimiter.structural f :=
  ⟨by decide, (split_cuts_only_outside_iff Delimiter.structural (by decide)).2.1 (by decide)⟩

/-- A group nested in one of its own kind leaves an operator in the outer one unprotected, in the cut
between terms as in the cut between modifiers. -/
theorem split_cuts_inside_group :
    (Nested "x{a>b{c}d}".toList ∧
      foldClimbs (cutOutside Delimiter.structural [] "x{a>b{c}d}".toList) =
        ["x{a>b{c}d}".toList] ∧
      split Delimiter.structural "x{a>b{c}d}".toList = ["x\x7ba".toList, ">b{c}d\x7d".toList]) ∧
    (Nested "x{a.b{c}d}".toList ∧
      foldClimbs (cutOutside Delimiter.modifiers [] "x{a.b{c}d}".toList) =
        ["x".toList, "{a.b{c}d}".toList] ∧
      split Delimiter.modifiers "x{a.b{c}d}".toList =
        ["x".toList, "\x7ba".toList, ".b".toList, "{c}d\x7d".toList]) := by
  decide

end Shorthand.Fragment
