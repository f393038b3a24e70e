import Shorthand.Proofs.Group.Outside
import Shorthand.Proofs.Token.Reading
import Shorthand.Proofs.Token.Stars

/-! # The count of a token

The count that is asked for stands behind the first star outside every group that a digit follows. In a
text with no group in a group the fragments of a token are the parts of what is outside groups, and the
first star of each is read. Main statement: when the count that is read is the one asked for
(`count_parse_eq_iff`). -/

namespace Shorthand

namespace Group

/-- A text whose groups are closed and hold no other group. -/
inductive Flat : Text → Prop
  | nil : Flat []
  | plain {c : Char} {text : Text} : isPlain c = true → Flat text → Flat (c :: text)
  | group {opener closer : Char} {inner text : Text} : (opener, closer) ∈ Delimiter.groups →
      (∀ c ∈ inner, isPlain c = true) → Flat text → Flat (opener :: inner ++ closer :: text)

theorem Flat.plain_append {u v : Text} (hu : ∀ c ∈ u, isPlain c = true) (hv : Flat v) : Flat (u ++ v) := by
  induction u with
  | nil => exact hv
  | cons c u ih =>
    obtain ⟨hc, hu⟩ := List.forall_mem_cons.1 hu
    exact .plain hc (ih hu)

end Group

namespace Token
open Fragment (Ends Piece SplitsInto cut opensWith)
open Shorthand.Group (Flat outside isPlain)

/-- The count that a token asks for: the number behind the first star outside every group that a digit
follows, up to the largest count, and one if there is no such star. -/
def documentedCount (raw : Text) : Nat :=
  match countStar? (outside [] raw) with
  | some found => writtenCount found.2
  | none => 1

/-- Characters outside groups that begin no modifier. -/
def IsRun (text : Text) : Prop :=
  ∀ c ∈ text, isPlain c = true ∧ Delimiter.modifiers.contains c = false

/-- A modifier and what follows it up to the next one. -/
inductive Decoration : Text → Prop
  | mark {c : Char} {rest : Text} : c ∈ Delimiter.modifiers → isPlain c = true → IsRun rest →
      Decoration (c :: rest)
  | group {opener closer : Char} {inner rest : Text} : (opener, closer) ∈ Delimiter.groups →
      (∀ c ∈ inner, isPlain c = true) → IsRun rest → Decoration (opener :: inner ++ closer :: rest)

/-- A flat text is a run with decorations behind it. -/
theorem exists_decorations {text : Text} (h : Flat text) :
    ∃ (run : Text) (fs : List Text), text = run ++ fs.flatten ∧ IsRun run ∧ ∀ f ∈ fs, Decoration f := by
  induction h with
  | nil => exact ⟨[], [], rfl, nofun, nofun⟩
  | @plain c text hc _ ih =>
    obtain ⟨run, fs, rfl, hrun, hfs⟩ := ih
    cases hm : Delimiter.modifiers.contains c with
    | true =>
      exact ⟨[], (c :: run) :: fs, rfl, nofun,
        List.forall_mem_cons.2 ⟨.mark (List.contains_iff_mem.1 hm) hc hrun, hfs⟩⟩
    | false => exact ⟨c :: run, fs, rfl, List.forall_mem_cons.2 ⟨⟨hc, hm⟩, hrun⟩, hfs⟩
  | @group opener closer inner text hg hinner _ ih =>
    obtain ⟨run, fs, rfl, hrun, hfs⟩ := ih
    refine ⟨[], (opener :: inner ++ closer :: run) :: fs, ?_, nofun,
      List.forall_mem_cons.2 ⟨.group hg hinner hrun, hfs⟩⟩
    simp

theorem opener_mem_modifiers {opener closer : Char} (hg : (opener, closer) ∈ Delimiter.groups) :
    opener ∈ Delimiter.modifiers := by
  rcases Group.eq_of_mem_groups hg with ⟨rfl, -⟩ | ⟨rfl, -⟩ <;> decide

theorem Decoration.opens {f : Text} (h : Decoration f) : opensWith Delimiter.modifiers f = true := by
  cases h with
  | mark hc => exact List.contains_iff_mem.2 hc
  | group hg => exact List.contains_iff_mem.2 (opener_mem_modifiers hg)

theorem Decoration.piece {f : Text} (h : Decoration f) : Piece Delimiter.modifiers f := by
  cases h with
  | @mark c rest hc hplain hrest =>
    refine Fragment.piece_of_plain (List.forall_mem_cons.2 ⟨hplain, fun d hd => (hrest d hd).1⟩)
      (fun d hd => (hrest d hd).2) fun he => ?_
    obtain ⟨rfl, -⟩ := List.cons.inj he
    exact absurd hc (by decide)
  | @group opener closer inner rest hg hinner hrest =>
    have hgroup : Piece Delimiter.modifiers (opener :: inner ++ [closer]) :=
      Fragment.piece_group hg hinner
    have hpiece := hgroup.append_plain (fun d hd => (hrest d hd).1) fun d hd => (hrest d hd).2
    rwa [List.append_assoc] at hpiece

theorem countAfterStar?_cons_modifier {c : Char} (hc : c ∈ Delimiter.modifiers) (text : Text) :
    countAfterStar? (c :: text) = countAfterStar? text := by
  refine countAfterStar?_append (u := [c]) (fun he => ?_) text
  rw [← List.mem_singleton.1 he] at hc
  exact absurd hc (by decide)

/-- Outside groups a decoration is a part, and its count is read off this part. -/
theorem Decoration.exists_outside {f : Text} (h : Decoration f) :
    ∃ c rest, outside [] f = c :: rest ∧ c ∈ Delimiter.modifiers ∧ IsRun rest ∧
      (readFragment f).2 = countAfterStar? (c :: rest) := by
  cases h with
  | @mark c rest hc hplain hrest =>
    refine ⟨c, rest, ?_, hc, hrest, ?_⟩
    · exact Group.outside_of_isPlain (List.forall_mem_cons.2 ⟨hplain, fun d hd => (hrest d hd).1⟩) []
    · rw [countAfterStar?_cons_modifier hc]
      simp only [Delimiter.modifiers, List.mem_cons, List.not_mem_nil, or_false] at hc
      rcases hc with rfl | rfl | rfl | rfl
      · rfl
      · rfl
      · cases hplain
      · cases hplain
  | @group opener closer inner rest hg hinner hrest =>
    refine ⟨opener, rest, ?_, opener_mem_modifiers hg, hrest, ?_⟩
    · have hout := Group.outside_append (Group.nested_group hg hinner) rest
      rw [List.append_assoc] at hout
      rw [show closer :: rest = [closer] ++ rest from rfl, hout, Group.outside_group hg hinner,
        Group.outside_of_isPlain fun d hd => (hrest d hd).1]
      rfl
    · have hread := Group.read_of_isPlain hg hinner rest
      rw [countAfterStar?_cons_modifier (opener_mem_modifiers hg)]
      rcases Group.eq_of_mem_groups hg with ⟨rfl, rfl⟩ | ⟨rfl, rfl⟩ <;>
        exact congrArg (fun found => countAfterStar? found.2) hread

/-- Splitting finds the decorations. -/
theorem splitsInto_decorations : ∀ {fs : List Text}, (∀ f ∈ fs, Decoration f) →
    SplitsInto Delimiter.modifiers fs.flatten fs ∧ Ends Delimiter.modifiers fs.flatten
  | [], _ => ⟨Fragment.splitsInto_nil, .inl rfl⟩
  | f :: fs, h => by
    obtain ⟨hf, hfs⟩ := List.forall_mem_cons.1 h
    obtain ⟨hsplits, hends⟩ := splitsInto_decorations hfs
    obtain ⟨c, rest, rfl⟩ := List.exists_cons_of_ne_nil hf.piece.ne_nil
    exact ⟨hsplits.append hf.piece hends, .inr hf.opens⟩

/-- What is read off decorations is read off what is outside of their groups. -/
theorem countRead?_decorations : ∀ {fs : List Text}, (∀ f ∈ fs, Decoration f) →
    countRead? (outside [] fs.flatten) = fs.findSome? (fun f => (readFragment f).2) ∧
      Ends Delimiter.modifiers (outside [] fs.flatten)
  | [], _ => ⟨rfl, .inl rfl⟩
  | f :: fs, h => by
    obtain ⟨hf, hfs⟩ := List.forall_mem_cons.1 h
    obtain ⟨hread, hends⟩ := countRead?_decorations hfs
    obtain ⟨c, rest, hout, hc, hrest, hcount⟩ := hf.exists_outside
    rw [List.flatten_cons, Group.outside_append hf.piece.nested, hout,
      countRead?_append (fun d hd => (hrest d hd).2) hends, hread, List.findSome?_cons, hcount]
    refine ⟨?_, .inr (List.contains_iff_mem.2 hc)⟩
    cases countAfterStar? (c :: rest) <;> rfl

/-- The run in front of the decorations is cut off, and its count is read first. -/
theorem countRead?_run {run v : Text} (hrun : IsRun run) (hv : Ends Delimiter.modifiers v) :
    countRead? (run ++ v) = (countAfterStar? run).or (countRead? v) := by
  cases run with
  | nil => rfl
  | cons c run => exact countRead?_append (fun d hd => (hrun d (List.mem_cons_of_mem c hd)).2) hv

theorem findSome?_split_run {run : Text} {fs : List Text} (hrun : IsRun run)
    (hclimb : run.head? ≠ some Delimiter.climb) (hfs : ∀ f ∈ fs, Decoration f) :
    (Fragment.split Delimiter.modifiers (run ++ fs.flatten)).findSome? (fun f => (readFragment f).2) =
      (countAfterStar? run).or (fs.findSome? fun f => (readFragment f).2) := by
  obtain ⟨hsplits, hends⟩ := splitsInto_decorations hfs
  cases run with
  | nil =>
    rw [List.nil_append, hsplits.split_eq]
    rfl
  | cons c run =>
    have hpiece := Fragment.piece_of_plain (fun d hd => (hrun d hd).1)
      (fun d hd => (hrun d (List.mem_cons_of_mem c hd)).2) fun he =>
        hclimb (congrArg List.head? he)
    have hc : c ∉ Delimiter.modifiers := fun hm => by
      have hno := (hrun c List.mem_cons_self).2
      rw [List.contains_iff_mem.2 hm] at hno
      cases hno
    rw [(hsplits.append hpiece hends).split_eq, List.findSome?_cons, readFragment_of_not_mem hc]
    cases countAfterStar? (c :: run) <;> rfl

/-- The operators in front hold no count. -/
theorem countAfterStar?_dropWhile_structural (run : Text) :
    countAfterStar? (run.dropWhile Delimiter.structural.contains) = countAfterStar? run := by
  have hstar : Delimiter.multiply ∉ run.takeWhile Delimiter.structural.contains := fun hm =>
    absurd (List.all_eq_true.1 List.all_takeWhile _ hm) (by decide)
  have happend := countAfterStar?_append hstar (run.dropWhile Delimiter.structural.contains)
  rw [List.takeWhile_append_dropWhile] at happend
  exact happend.symm

theorem not_structural_of_ends {v : Text} (hv : Ends Delimiter.modifiers v) :
    ∀ c ∈ v.head?, Delimiter.structural.contains c = false := by
  have hno : ∀ m ∈ Delimiter.modifiers, Delimiter.structural.contains m = false :=
    Text.forall_mem_of_all (by decide)
  exact fun c hc => hno c (List.contains_iff_mem.1 (hv.contains_of_mem_head? hc))

/-- The count of a token is read off the parts of what is outside its groups. -/
theorem count_parse_eq (start : Nat) {raw : Text} (h : Flat raw) :
    (parse start raw).count = (countRead? (outside [] raw)).getD 1 := by
  obtain ⟨run, fs, rfl, hrun, hfs⟩ := exists_decorations h
  obtain ⟨-, hends⟩ := splitsInto_decorations hfs
  obtain ⟨hread, hends'⟩ := countRead?_decorations hfs
  have hbody : (run ++ fs.flatten).dropWhile Delimiter.structural.contains =
      run.dropWhile Delimiter.structural.contains ++ fs.flatten := by
    rw [List.dropWhile_append, Text.dropWhile_eq_self (not_structural_of_ends hends)]
    split
    · rename_i hempty
      rw [List.isEmpty_iff.1 hempty, List.nil_append]
    · rfl
  have hclimb : (run.dropWhile Delimiter.structural.contains).head? ≠ some Delimiter.climb := by
    intro he
    have hfirst := List.head?_dropWhile_not Delimiter.structural.contains run
    rw [he] at hfirst
    exact absurd hfirst (by decide)
  have hplain : ∀ c ∈ run, isPlain c = true := fun c hc => (hrun c hc).1
  have hsplit := findSome?_split_run (fun c hc => hrun c ((List.dropWhile_sublist _).subset hc)) hclimb hfs
  have hcount : (parse start (run ++ fs.flatten)).count =
      ((Fragment.split Delimiter.modifiers
        ((run ++ fs.flatten).dropWhile Delimiter.structural.contains)).findSome?
          fun f => (readFragment f).2).getD 1 := rfl
  rw [hcount, hbody, hsplit, Group.outside_append (Group.pendingAfter_of_isPlain hplain []),
    Group.outside_of_isPlain hplain, List.isEmpty_nil, if_pos rfl, countRead?_run hrun hends', hread,
    countAfterStar?_dropWhile_structural]

/-- **The count that is read is the one asked for** exactly when the star it is asked with is the first star
of its part, or what is read instead, off the parts after this one, happens to be the same number. -/
theorem count_parse_eq_iff (start : Nat) {raw : Text} (h : Flat raw) :
    (parse start raw).count = documentedCount raw ↔
      ∀ before after, countStar? (outside [] raw) = some (before, after) →
        starsApart before = true ∨ (countBehind? after).getD 1 = writtenCount after := by
  rw [count_parse_eq start h, countRead?_eq, documentedCount]
  cases hstar : countStar? (outside [] raw) with
  | none => exact iff_of_true rfl nofun
  | some found =>
    obtain ⟨before, after⟩ := found
    rw [Option.bind_some]
    constructor
    · rintro hcount _ _ ⟨⟩
      cases hapart : starsApart before with
      | true => exact .inl rfl
      | false =>
        rw [hapart] at hcount
        exact .inr hcount
    · intro hfound
      cases hapart : starsApart before with
      | true => rfl
      | false => exact (hfound before after rfl).resolve_left (by rw [hapart]; exact Bool.false_ne_true)

/-- Stars with no digits behind them, stars in a group, and a number of twenty digits. -/
def decorated : Text := ">ul*.a*#b[*9]*99999999999999999999\x7bx\x7d*7".toList

theorem count_parse_decorated : Flat decorated ∧ documentedCount decorated = maxCount ∧
    (parse 0 decorated).count = documentedCount decorated := by
  have hend : Flat "\x7bx\x7d*7".toList :=
    @Flat.group _ _ "x".toList _ Group.text_mem_groups (Text.forall_mem_of_all (by decide))
      (@Flat.plain_append "*7".toList _ (Text.forall_mem_of_all (by decide)) .nil)
  have hgroup : Flat "[*9]*99999999999999999999\x7bx\x7d*7".toList :=
    @Flat.group _ _ "*9".toList _ Group.attributes_mem_groups (Text.forall_mem_of_all (by decide))
      (@Flat.plain_append "*99999999999999999999".toList _ (Text.forall_mem_of_all (by decide)) hend)
  have hflat : Flat decorated :=
    @Flat.plain_append ">ul*.a*#b".toList _ (Text.forall_mem_of_all (by decide)) hgroup
  have hapart : (countStar? (outside [] decorated)).all (fun found => starsApart found.1) = true := by
    decide
  refine ⟨hflat, by decide, (count_parse_eq_iff 0 hflat).2 fun before after hfound => .inl ?_⟩
  rw [hfound] at hapart
  exact hapart

/-- A second star hides the count behind it. -/
theorem count_of_two_stars : Flat "li**3".toList ∧ documentedCount "li**3".toList = 3 ∧
    (parse 0 "li**3".toList).count = 1 :=
  ⟨@Flat.plain_append "li**3".toList [] (Text.forall_mem_of_all (by decide)) .nil, by decide, by decide⟩

end Token
end Shorthand
