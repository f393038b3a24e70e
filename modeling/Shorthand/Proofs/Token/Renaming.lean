import Shorthand.Proofs.Fragment.Dividing
import Shorthand.Proofs.Token.Reading

/-! # Tokens under another name

A text is cut and glued from the right, so what is cut off behind a name does not depend on the name, and
what is glued to a name is glued to any other one in its place. The name that was read may have held
operators that were glued back to it; a bare one holds none. Main statement: the text of a token under a
bare name is read as the token under this name (`parse_rename`). -/

namespace Shorthand

namespace Fragment
variable {operators : List Char}

/-! ## Splitting behind a beginning -/

theorem putFront_eq_cons_cons {apart : Bool} {c d : Char} {f : Text} {fs gs : List Text}
    (h : putFront apart c fs = (c :: d :: f) :: gs) : apart = false ∧ fs = (d :: f) :: gs := by
  cases fs with
  | nil => cases h
  | cons g fs => cases apart <;> simp_all [putFront]

/-- What follows a character in its fragment, and the fragments behind that one, do not depend on the
character. -/
theorem exists_glue_cut_behind (operators : List Char) (v : Text) :
    ∃ r fs, ∀ c, glue (cut operators (c :: v)) = (c :: r) :: fs := by
  cases hv : glue (cut operators v) with
  | nil => exact ⟨[], [], fun c => by rw [glue_cut_cons, hv]; rfl⟩
  | cons f fs =>
    cases hapart : opensWith operators v && !continuesGroup f with
    | true => exact ⟨[], f :: fs, fun c => by rw [glue_cut_cons, hv, List.headD_cons, hapart]; rfl⟩
    | false => exact ⟨f, fs, fun c => by rw [glue_cut_cons, hv, List.headD_cons, hapart]; rfl⟩

/-- A first fragment that holds a whole beginning goes on as behind any character. -/
theorem glue_cut_of_append {v r : Text} {fs : List Text} (c : Char) : ∀ {u : Text}, u ≠ [] →
    glue (cut operators (u ++ v)) = (u ++ r) :: fs → glue (cut operators (c :: v)) = (c :: r) :: fs
  | [d], _, h => by
    obtain ⟨r', fs', hbehind⟩ := exists_glue_cut_behind operators v
    have hd := (hbehind d).symm.trans h
    obtain ⟨hr, rfl⟩ := List.cons.inj hd
    rw [hbehind c, (List.cons.inj hr).2]
    rfl
  | d :: e :: u, _, h => by
    rw [List.cons_append, glue_cut_cons] at h
    exact glue_cut_of_append c (List.cons_ne_nil e u) (putFront_eq_cons_cons h).2

/-- Nothing is cut in front of what is no operator. -/
theorem glue_cut_append {v r : Text} {fs : List Text}
    (h : ∀ c, glue (cut operators (c :: v)) = (c :: r) :: fs) : ∀ {u : Text}, u ≠ [] →
    (∀ d ∈ u.tail, operators.contains d = false) → glue (cut operators (u ++ v)) = (u ++ r) :: fs
  | [d], _, _ => h d
  | d :: e :: u, _, hfree => by
    have hopens : opensWith operators (e :: u ++ v) = false := hfree e List.mem_cons_self
    rw [List.cons_append, glue_cut_cons, hopens,
      glue_cut_append h (List.cons_ne_nil e u) fun x hx => hfree x (List.mem_cons_of_mem e hx)]
    rfl

theorem foldClimbs_eq_self {fs : List Text} (h : ∀ f ∈ fs, f ≠ [Delimiter.climb]) :
    foldClimbs fs = fs := by
  induction fs with
  | nil => rfl
  | cons f fs ih =>
    obtain ⟨hf, hfs⟩ := List.forall_mem_cons.1 h
    rw [foldClimbs_cons hf, ih hfs]

/-- No climb is folded where climbs are no operators and none is in front. -/
theorem split_eq_glue_cut (hclimb : operators.contains Delimiter.climb = false) {text : Text}
    (hhead : text.head? ≠ some Delimiter.climb) : split operators text = glue (cut operators text) := by
  cases text with
  | nil => rfl
  | cons c text =>
    have hseparate : Separate operators (glue (cut operators (c :: text))) :=
      putsInFront_glueStep.separate_foldr (separate_cut _)
    obtain ⟨f, fs, hf⟩ := exists_glue_cut_cons operators c text
    rw [split, hf]
    rw [hf] at hseparate
    refine foldClimbs_eq_self (List.forall_mem_cons.2 ⟨fun he => ?_, fun g hg he => ?_⟩)
    · exact hhead (congrArg some (List.cons.inj he).1)
    · have hopens := hseparate.2 g hg
      rw [he] at hopens
      exact Bool.false_ne_true (hclimb.symm.trans hopens)

/-- **A beginning without operators takes the place of another one**, whatever that one held. -/
theorem split_append_of_free (hclimb : operators.contains Delimiter.climb = false) {u u' v r : Text}
    {fs : List Text} (h : split operators (u ++ v) = (u ++ r) :: fs) (hne : u ≠ []) (hne' : u' ≠ [])
    (hhead : (u ++ v).head? ≠ some Delimiter.climb) (hhead' : (u' ++ v).head? ≠ some Delimiter.climb)
    (hfree : ∀ c ∈ u'.tail, operators.contains c = false) :
    split operators (u' ++ v) = (u' ++ r) :: fs := by
  rw [split_eq_glue_cut hclimb hhead] at h
  rw [split_eq_glue_cut hclimb hhead']
  exact glue_cut_append (fun c => glue_cut_of_append c hne h) hne' hfree

end Fragment

namespace Token

/-! ## What is read of a token -/

/-- What is read of a token whose operators are known. -/
theorem toTerm_parse (start : Nat) {lead body : Text}
    (hlead : ∀ c ∈ lead, Delimiter.structural.contains c = true)
    (hbody : ∀ c ∈ body.head?, Delimiter.structural.contains c = false) :
    (parse start (lead ++ body)).toTerm =
      { operator := .ofRun lead
        name := nameOf (Fragment.split Delimiter.modifiers body)
        count := ((Fragment.split Delimiter.modifiers body).findSome? fun f => (readFragment f).2).getD 1
        modifiers := (Fragment.split Delimiter.modifiers body).filterMap modifier? } := by
  obtain ⟨htake, hdrop⟩ := Text.takeWhile_append_dropWhile hlead hbody
  simp only [parse, htake, hdrop]

/-- A token is put together from its operators, which are no more than that, its name and the rest. -/
theorem lead_parse (start : Nat) (raw : Text) :
    (∀ c ∈ (parse start raw).lead, Delimiter.structural.contains c = true) ∧
    ∀ c ∈ ((parse start raw).name ++ (parse start raw).trail).head?,
      Delimiter.structural.contains c = false := by
  have hraw := raw_parse start raw
  have hlead : (parse start raw).lead = raw.takeWhile Delimiter.structural.contains := rfl
  have hbody : (parse start raw).name ++ (parse start raw).trail =
      raw.dropWhile Delimiter.structural.contains := by
    have hcut := List.takeWhile_append_dropWhile (p := Delimiter.structural.contains) (l := raw)
    rw [Token.raw, List.append_assoc, hlead] at hraw
    exact List.append_cancel_left (hraw.trans hcut.symm)
  rw [hbody, hlead]
  refine ⟨fun c hc => List.all_eq_true.1 List.all_takeWhile c hc, fun c hc => ?_⟩
  have hfirst := List.head?_dropWhile_not Delimiter.structural.contains raw
  rw [Option.mem_def.1 hc] at hfirst
  simpa using hfirst

/-- The name is what the fragments of the name and the rest say. -/
theorem nameOf_parse (start : Nat) (raw : Text) :
    nameOf (Fragment.split Delimiter.modifiers ((parse start raw).name ++ (parse start raw).trail)) =
      (parse start raw).name := by
  obtain ⟨hlead, hbody⟩ := lead_parse start raw
  have hname := congrArg Term.name (toTerm_parse start hlead hbody)
  have hraw := raw_parse start raw
  rw [Token.raw, List.append_assoc] at hraw
  rw [hraw] at hname
  exact hname.symm

theorem exists_fragments_of_nameOf {fs : List Text} (h : nameOf fs ≠ []) :
    ∃ f rest, fs = f :: rest ∧ (readFragment f).1 = .name (nameOf fs) := by
  cases fs with
  | nil => exact absurd rfl h
  | cons f rest =>
    refine ⟨f, rest, rfl, ?_⟩
    cases hf : (readFragment f).1 with
    | name value => simp [nameOf, hf]
    | modifier m => simp [nameOf, hf] at h

/-! ## Another name in its place -/

/-- The fragments say the name, and the count and the modifiers that others say. -/
structure Renamed (name : Text) (others fs : List Text) : Prop where
  name : nameOf fs = name
  count : fs.findSome? (fun f => (readFragment f).2) = others.findSome? fun f => (readFragment f).2
  modifiers : fs.filterMap modifier? = others.filterMap modifier?

/-- A name that takes the place of another one at the beginning of the first fragment. -/
theorem renamed_of_split {name name' trail : Text}
    (hname : nameOf (Fragment.split Delimiter.modifiers (name ++ trail)) = name) (hne : name ≠ [])
    (hne' : name' ≠ []) (hhead' : ∀ c ∈ name'.head?, c ∉ Delimiter.modifiers)
    (hstar' : ∀ c ∈ name', c ≠ Delimiter.multiply)
    (hsplit : ∀ r fs, Fragment.split Delimiter.modifiers (name ++ trail) = (name ++ r) :: fs →
      Fragment.split Delimiter.modifiers (name' ++ trail) = (name' ++ r) :: fs) :
    Renamed name' (Fragment.split Delimiter.modifiers (name ++ trail))
      (Fragment.split Delimiter.modifiers (name' ++ trail)) := by
  obtain ⟨f, fs, hold, hf⟩ := exists_fragments_of_nameOf (hname.symm ▸ hne)
  rw [hname] at hf
  obtain ⟨mark, rfl, hmark, hhead, hstar⟩ := exists_mark_of_name hf hne
  have hread := readFragment_name_append hne hhead hstar hmark
  have hread' := readFragment_name_append hne' hhead' hstar' hmark
  rw [hold, hsplit mark fs hold]
  constructor
  · rw [nameOf, hread']
  · rw [List.findSome?_cons, List.findSome?_cons, hread, hread']
  · rw [List.filterMap_cons_none (by rw [modifier?, hread']),
      List.filterMap_cons_none (by rw [modifier?, hread])]

/-- A renamed token is read as such when the fragments behind its operators say so. -/
theorem toTerm_parse_of_renamed (start start' : Nat) (raw : Text) {name : Text}
    (hbody : ∀ c ∈ (name ++ (parse start raw).trail).head?, Delimiter.structural.contains c = false)
    (h : Renamed name
      (Fragment.split Delimiter.modifiers ((parse start raw).name ++ (parse start raw).trail))
      (Fragment.split Delimiter.modifiers (name ++ (parse start raw).trail))) :
    (parse start' ((parse start raw).rename name).raw).toTerm =
      ((parse start raw).rename name).toTerm := by
  obtain ⟨hlead, hbody₀⟩ := lead_parse start raw
  have hraw := raw_parse start raw
  rw [Token.raw, List.append_assoc] at hraw
  have hold := toTerm_parse start hlead hbody₀
  rw [hraw] at hold
  have hnew := toTerm_parse start' hlead hbody
  rw [h.name, h.count, h.modifiers] at hnew
  have hoperator := congrArg Term.operator hold
  have hcount := congrArg Term.count hold
  have hmodifiers := congrArg Term.modifiers hold
  rw [Token.raw, List.append_assoc]
  refine hnew.trans ?_
  change _ = Term.mk (parse start raw).operator name (parse start raw).count (parse start raw).modifiers
  rw [hoperator, hcount, hmodifiers]

/-- Behind a bare name the fragments are cut as behind the name that was read. -/
theorem renamed_of_isBare (start : Nat) (raw : Text) {name : Text} (hold : (parse start raw).name ≠ [])
    (hne : name ≠ []) (hbare : ∀ c ∈ name, Delimiter.isBare c = true) :
    (∀ c ∈ (name ++ (parse start raw).trail).head?, Delimiter.structural.contains c = false) ∧
    Renamed name
      (Fragment.split Delimiter.modifiers ((parse start raw).name ++ (parse start raw).trail))
      (Fragment.split Delimiter.modifiers (name ++ (parse start raw).trail)) := by
  obtain ⟨-, hbody⟩ := lead_parse start raw
  have hbody' : ∀ c ∈ (name ++ (parse start raw).trail).head?,
      Delimiter.structural.contains c = false := by
    obtain ⟨d, rest, rfl⟩ := List.exists_cons_of_ne_nil hne
    rintro c ⟨⟩
    exact structural_of_isBare (hbare d List.mem_cons_self)
  have hnotClimb : ∀ {text : Text}, (∀ c ∈ text.head?, Delimiter.structural.contains c = false) →
      text.head? ≠ some Delimiter.climb := fun htext he => absurd (htext _ he) (by decide)
  refine ⟨hbody', renamed_of_split (nameOf_parse start raw) hold hne (fun c hc hm => ?_) (not_star_of_isBare hbare)
    fun r fs hsplit => ?_⟩
  · have hno := modifiers_of_isBare (hbare c (List.mem_of_mem_head? hc))
    rw [List.contains_iff_mem.2 hm] at hno
    cases hno
  · exact Fragment.split_append_of_free (by decide) hsplit hold hne (hnotClimb hbody) (hnotClimb hbody')
      fun c hc => modifiers_of_isBare (hbare c (List.mem_of_mem_tail hc))

theorem ext {s t : Token} (hterm : s.toTerm = t.toTerm) (hspan : s.span = t.span)
    (hlead : s.lead = t.lead) (htrail : s.trail = t.trail) : s = t := by
  cases s
  cases t
  cases hterm
  cases hspan
  cases hlead
  cases htrail
  rfl

/-- **The text of a token under a bare name is read as the token under this name**, whatever operators the
name held that it had before. -/
theorem parse_rename (start start' : Nat) (raw : Text) {name : Text} (hold : (parse start raw).name ≠ [])
    (hne : name ≠ []) (hbare : ∀ c ∈ name, Delimiter.isBare c = true) :
    parse start' ((parse start raw).rename name).raw =
      { (parse start raw).rename name with
        span := ⟨start', start' + ((parse start raw).rename name).raw.byteLength⟩ } := by
  obtain ⟨hbody, hrenamed⟩ := renamed_of_isBare start raw hold hne hbare
  have hterm := toTerm_parse_of_renamed start start' raw hbody hrenamed
  have hname := congrArg Term.name hterm
  have hraw : ((parse start raw).rename name).raw =
      (parse start raw).lead ++ (name ++ (parse start raw).trail) := List.append_assoc ..
  obtain ⟨hlead, hrest⟩ := Text.takeWhile_append_dropWhile (lead_parse start raw).1 hbody
  rw [← hraw] at hlead hrest
  have htrail : (parse start' ((parse start raw).rename name).raw).trail = (parse start raw).trail := by
    have hdrop : (parse start' ((parse start raw).rename name).raw).trail =
        (((parse start raw).rename name).raw.dropWhile Delimiter.structural.contains).drop
          (parse start' ((parse start raw).rename name).raw).name.length := rfl
    rw [hdrop, hname, hrest]
    exact List.drop_left
  exact ext hterm rfl hlead htrail

end Token
end Shorthand
