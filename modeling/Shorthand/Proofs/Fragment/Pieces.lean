import Shorthand.Proofs.Fragment.Sealed

/-! # Texts that are put together from pieces

A piece is a text that splitting leaves whole. Main statements: a piece in front of what begins with an
operator is what splitting finds again (`SplitsInto.append`), also with climbs in front of it
(`SplitsInto.climbs`). -/

namespace Shorthand.Fragment
open Shorthand.Group (Nested isPlain pendingAfter)

/-- A nested text that is left whole whatever it stands behind. -/
structure Piece (operators : List Char) (text : Text) : Prop where
  ne_nil : text ≠ []
  not_climb : text ≠ [Delimiter.climb]
  nested : Nested text
  whole : cutOutside operators [] text = [text]
  is_sealed : Sealed operators text

/-- A nested text whose cut outside groups is sealed and gives the pieces. -/
structure SplitsInto (operators : List Char) (text : Text) (pieces : List Text) : Prop where
  nested : Nested text
  sealed_cut : ∀ f ∈ cutOutside operators [] text, Sealed operators f
  folded : foldClimbs (cutOutside operators [] text) = pieces

variable {operators : List Char}

theorem SplitsInto.split_eq {text : Text} {pieces : List Text}
    (h : SplitsInto operators text pieces) : split operators text = pieces := by
  rw [(split_eq_iff_sealed operators h.nested).2 h.sealed_cut, h.folded]

theorem splitsInto_nil : SplitsInto operators [] [] where
  nested := rfl
  sealed_cut := nofun
  folded := rfl

theorem foldClimbs_cons {f : Text} (h : f ≠ [Delimiter.climb]) (fs : List Text) :
    foldClimbs (f :: fs) = f :: foldClimbs fs := by
  change climbStep f (foldClimbs fs) = _
  cases foldClimbs fs with
  | nil => rfl
  | cons g gs => rw [climbStep, if_neg h]

/-- A piece in front of nothing or of an operator. -/
theorem SplitsInto.append {u v : Text} {pieces : List Text} (hv : SplitsInto operators v pieces)
    (hu : Piece operators u) (h : v = [] ∨ opensWith operators v = true) :
    SplitsInto operators (u ++ v) (u :: pieces) := by
  have hcut : cutOutside operators [] (u ++ v) = u :: cutOutside operators [] v := by
    rcases h with rfl | h
    · rw [List.append_nil, hu.whole]
      rfl
    · rw [cutOutside_append_of_opensWith operators h hu.ne_nil hu.nested, hu.whole]
      rfl
  refine ⟨hu.nested.append hv.nested, ?_, ?_⟩
  · rw [hcut]
    intro f hf
    rcases List.mem_cons.1 hf with rfl | hf
    · exact hu.is_sealed
    · exact hv.sealed_cut f hf
  · rw [hcut, foldClimbs_cons hu.not_climb, hv.folded]

/-- One more climb in front of a climb goes into its piece. -/
theorem SplitsInto.climb {v p : Text} {pieces : List Text}
    (hv : SplitsInto operators v (p :: pieces)) (h : opensWith operators v = true) :
    SplitsInto operators (Delimiter.climb :: v) ((Delimiter.climb :: p) :: pieces) := by
  have hnested : Nested [Delimiter.climb] := rfl
  have hcut : cutOutside operators [] (Delimiter.climb :: v) =
      [Delimiter.climb] :: cutOutside operators [] v :=
    cutOutside_append_of_opensWith operators h (List.cons_ne_nil Delimiter.climb []) hnested
  refine ⟨hnested.append hv.nested, ?_, ?_⟩
  · rw [hcut]
    intro f hf
    rcases List.mem_cons.1 hf with rfl | hf
    · exact sealed_singleton operators _
    · exact hv.sealed_cut f hf
  · have hstep : foldClimbs (cutOutside operators [] (Delimiter.climb :: v)) =
        climbStep [Delimiter.climb] (foldClimbs (cutOutside operators [] v)) := by
      rw [hcut]
      rfl
    rw [hstep, hv.folded]
    simp [climbStep]

/-- An operator in front of a piece that has none in front. -/
theorem Piece.cons {c : Char} {u : Text} (hu : Piece operators u) (hc : isPlain c = true)
    (h : opensWith operators u = false) : Piece operators (c :: u) where
  ne_nil := List.cons_ne_nil c u
  not_climb he := hu.ne_nil (List.cons.inj he).2
  nested := by
    rw [Nested, Group.pendingAfter_cons, Group.pendingStep_of_isPlain hc]
    exact hu.nested
  whole := by
    rw [cutOutside_cons operators (Group.pendingStep_of_isPlain hc []), hu.whole, h]
    rfl
  is_sealed := sealed_cons_iff.2 ⟨hu.is_sealed, fun ho => by rw [h] at ho; cases ho⟩

/-- A piece behind one, climbs between them. -/
theorem SplitsInto.climbs {v p : Text} {pieces : List Text}
    (hv : SplitsInto operators v (p :: pieces)) (h : opensWith operators v = true)
    (hclimb : operators.contains Delimiter.climb = true) : ∀ k : Nat,
      SplitsInto operators (List.replicate k Delimiter.climb ++ v)
        ((List.replicate k Delimiter.climb ++ p) :: pieces)
  | 0 => hv
  | k + 1 => by
    refine (hv.climbs h hclimb k).climb ?_
    cases k with
    | zero => exact h
    | succ k => exact hclimb

/-! ## What stands behind a name -/

/-- A nested text that is left whole, begins with no operator and may be empty. -/
structure Trailing (operators : List Char) (text : Text) : Prop where
  nested : Nested text
  opens : opensWith operators text = false
  whole : text ≠ [] → cutOutside operators [] text = [text]
  is_sealed : Sealed operators text

theorem Trailing.piece {text : Text} (h : Trailing operators text) (hne : text ≠ [])
    (hclimb : text ≠ [Delimiter.climb]) : Piece operators text where
  ne_nil := hne
  not_climb := hclimb
  nested := h.nested
  whole := h.whole hne
  is_sealed := h.is_sealed

theorem sealed_nil : Sealed operators [] := by
  intro u v h hu
  exact absurd (List.append_eq_nil_iff.1 h.symm).1 hu

theorem trailing_nil : Trailing operators [] where
  nested := rfl
  opens := rfl
  whole h := absurd rfl h
  is_sealed := sealed_nil

/-- What holds no operator needs no seal. -/
theorem sealed_append {v : Text} (hv : Sealed operators v) (hopens : opensWith operators v = false) :
    ∀ {u : Text}, (∀ c ∈ u, operators.contains c = false) →
      Sealed operators (u ++ v) ∧ opensWith operators (u ++ v) = false
  | [], _ => ⟨hv, hopens⟩
  | c :: u, hu => by
    obtain ⟨hs, hno⟩ := sealed_append hv hopens fun d hd => hu d (List.mem_cons_of_mem c hd)
    refine ⟨sealed_cons_iff.2 ⟨hs, fun h => ?_⟩, hu c List.mem_cons_self⟩
    rw [show opensWith operators (u.append v) = false from hno] at h
    cases h

/-- Two texts that are left whole are left whole together when the second opens with no operator. -/
theorem whole_append {u v : Text} (hnested : Nested u)
    (hu : u ≠ [] → cutOutside operators [] u = [u]) (hv : v ≠ [] → cutOutside operators [] v = [v])
    (hopens : opensWith operators v = false) (hne : u ++ v ≠ []) :
    cutOutside operators [] (u ++ v) = [u ++ v] := by
  cases v with
  | nil =>
    rw [List.append_nil] at hne ⊢
    exact hu hne
  | cons c v =>
    exact cutOutside_append_of_whole operators (hv (List.cons_ne_nil c v)) (.inr hopens) hnested hu

/-- Plain characters that are no operators in front. -/
theorem Trailing.append {v : Text} (hv : Trailing operators v) {u : Text}
    (hu : ∀ c ∈ u, isPlain c = true) (ho : ∀ c ∈ u, operators.contains c = false) :
    Trailing operators (u ++ v) := by
  obtain ⟨hsealed, hopens⟩ := sealed_append hv.is_sealed hv.opens ho
  have hnested : Nested u := Group.pendingAfter_of_isPlain hu []
  refine ⟨hnested.append hv.nested, hopens, whole_append hnested (fun hne => ?_) hv.whole hv.opens,
    hsealed⟩
  exact cutOutside_of_isPlain operators hne hu
    (.inr fun c hc => ho c (List.mem_of_mem_tail hc))

/-- Plain characters that are no operators. -/
theorem trailing_of_plain {text : Text} (h : ∀ c ∈ text, isPlain c = true)
    (ho : ∀ c ∈ text, operators.contains c = false) : Trailing operators text := by
  have htext := trailing_nil.append h ho
  rwa [List.append_nil] at htext

/-- Plain characters behind one that may be an operator. -/
theorem piece_of_plain {c : Char} {rest : Text} (h : ∀ d ∈ c :: rest, isPlain d = true)
    (ho : ∀ d ∈ rest, operators.contains d = false) (hclimb : c :: rest ≠ [Delimiter.climb]) :
    Piece operators (c :: rest) where
  ne_nil := List.cons_ne_nil c rest
  not_climb := hclimb
  nested := Group.pendingAfter_of_isPlain h []
  whole := cutOutside_of_isPlain operators (List.cons_ne_nil c rest) h (.inr ho)
  is_sealed := by
    have hrest := trailing_of_plain (List.forall_mem_cons.1 h).2 ho
    exact sealed_cons_iff.2 ⟨hrest.is_sealed, by rw [hrest.opens]; exact nofun⟩

theorem not_mem_of_isPlain {opener closer : Char} (hg : (opener, closer) ∈ Delimiter.groups)
    {text : Text} (h : ∀ c ∈ text, isPlain c = true) : opener ∉ text :=
  fun hm => (Group.ne_of_isPlain hg (h opener hm)).1 rfl

theorem Sealed.append_plain {v : Text} (hv : ∀ c ∈ v, isPlain c = true)
    (ho : ∀ c ∈ v, operators.contains c = false) : ∀ {u : Text}, Sealed operators u →
      Sealed operators (u ++ v)
  | [], _ => (trailing_of_plain hv ho).is_sealed
  | c :: u, hu => by
    obtain ⟨hu, hopens⟩ := sealed_cons_iff.1 hu
    refine sealed_cons_iff.2 ⟨hu.append_plain hv ho, fun h => ?_⟩
    cases u with
    | nil =>
      have hno := (trailing_of_plain hv ho).opens
      rw [show opensWith operators v = true from h] at hno
      cases hno
    | cons d u =>
      obtain ⟨⟨opener, closer⟩, hg, hcloser, hopener⟩ := continuesGroup_iff.1 (hopens h)
      refine continuesGroup_iff.2 ⟨_, hg, List.mem_append_left v hcloser, fun hm => ?_⟩
      exact (List.mem_append.1 hm).elim hopener (not_mem_of_isPlain hg hv)

/-- Plain characters that are no operators behind a piece. -/
theorem Piece.append_plain {u v : Text} (hu : Piece operators u) (hv : ∀ c ∈ v, isPlain c = true)
    (ho : ∀ c ∈ v, operators.contains c = false) : Piece operators (u ++ v) where
  ne_nil := List.append_ne_nil_of_left_ne_nil hu.ne_nil v
  not_climb he := by
    rcases List.append_eq_singleton_iff.1 he with ⟨hnil, -⟩ | ⟨hclimb, -⟩
    · exact hu.ne_nil hnil
    · exact hu.not_climb hclimb
  nested := hu.nested.append (Group.pendingAfter_of_isPlain hv [])
  whole := whole_append hu.nested (fun _ => hu.whole) (trailing_of_plain hv ho).whole
    (trailing_of_plain hv ho).opens (List.append_ne_nil_of_left_ne_nil hu.ne_nil v)
  is_sealed := hu.is_sealed.append_plain hv ho

/-! ## Groups -/

/-- Operators in front of the last closer of a kind are sealed by it. -/
theorem sealed_append_closer {opener closer : Char} (hg : (opener, closer) ∈ Delimiter.groups)
    {v : Text} (hv : Sealed operators (closer :: v)) (hopener : opener ∉ closer :: v) :
    ∀ {u : Text}, opener ∉ u → Sealed operators (u ++ closer :: v)
  | [], _ => hv
  | c :: u, hu => by
    obtain ⟨-, hu⟩ := not_or.1 (mt List.mem_cons.2 hu)
    refine sealed_cons_iff.2 ⟨sealed_append_closer hg hv hopener hu, fun _ => ?_⟩
    exact continuesGroup_iff.2 ⟨_, hg, List.mem_append_right u List.mem_cons_self,
      fun hm => (List.mem_append.1 hm).elim hu hopener⟩

theorem opener_ne_closer {opener closer : Char} (hg : (opener, closer) ∈ Delimiter.groups) :
    opener ≠ closer := by
  rcases Group.eq_of_mem_groups hg with ⟨rfl, rfl⟩ | ⟨rfl, rfl⟩ <;> decide

/-- The operators in a group are sealed when no other group of its kind follows. -/
theorem sealed_group_append {opener closer : Char} (hg : (opener, closer) ∈ Delimiter.groups)
    {inner v : Text} (hinner : ∀ c ∈ inner, isPlain c = true) (hv : Sealed operators v)
    (hopens : opensWith operators v = false) (hopener : opener ∉ v) :
    Sealed operators (opener :: inner ++ closer :: v) := by
  have hcloser : Sealed operators (closer :: v) :=
    sealed_cons_iff.2 ⟨hv, by rw [hopens]; exact nofun⟩
  have hafter : opener ∉ closer :: v := fun hm =>
    (List.mem_cons.1 hm).elim (opener_ne_closer hg) hopener
  have hbefore : opener ∉ inner := not_mem_of_isPlain hg hinner
  refine sealed_cons_iff.2 ⟨sealed_append_closer hg hcloser hafter hbefore, fun _ => ?_⟩
  exact continuesGroup_iff.2 ⟨_, hg, List.mem_append_right inner List.mem_cons_self,
    fun hm => (List.mem_append.1 hm).elim hbefore hafter⟩

/-- A group in front of what holds no other group of its kind. -/
theorem Trailing.group_append {v : Text} (hv : Trailing operators v) {opener closer : Char}
    (hg : (opener, closer) ∈ Delimiter.groups) (ho : operators.contains opener = false) {inner : Text}
    (hinner : ∀ c ∈ inner, isPlain c = true) (hopener : opener ∉ v) :
    Trailing operators (opener :: inner ++ [closer] ++ v) := by
  have hnested := Group.nested_group hg hinner
  refine ⟨hnested.append hv.nested, ho, whole_append hnested (fun _ => ?_) hv.whole hv.opens, ?_⟩
  · exact cutOutside_group operators hg hinner
  · rw [List.append_assoc]
    exact sealed_group_append hg hinner hv.is_sealed hv.opens hopener

/-- A group is a piece. -/
theorem piece_group {opener closer : Char} (hg : (opener, closer) ∈ Delimiter.groups) {inner : Text}
    (hinner : ∀ c ∈ inner, isPlain c = true) : Piece operators (opener :: inner ++ [closer]) where
  ne_nil := List.cons_ne_nil opener _
  not_climb he := absurd (List.cons.inj he).2 (List.append_ne_nil_of_right_ne_nil inner nofun)
  nested := Group.nested_group hg hinner
  whole := cutOutside_group operators hg hinner
  is_sealed := sealed_group_append hg hinner sealed_nil rfl List.not_mem_nil

end Shorthand.Fragment
