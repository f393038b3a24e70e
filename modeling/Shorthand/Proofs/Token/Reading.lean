import Shorthand.Proofs.Text
import Shorthand.Proofs.Token.Spelling

/-! # Reading what terms write

The operator is read off the run of operator characters, the name off the first fragment and each
modifier off one of the others. The count stands behind the first fragment or behind the last. Main
statement: the tokens of spelled terms are the terms (`tokenize_spellings`). -/

namespace Shorthand
open Fragment (Piece SplitsInto)
open Shorthand.Group (isPlain)

theorem Group.read_of_isPlain {opener closer : Char} (hg : (opener, closer) ∈ Delimiter.groups)
    {inner : Text} (hinner : ∀ c ∈ inner, isPlain c = true) (after : Text) :
    Group.read opener closer (inner ++ closer :: after) = (inner, after) := by
  have hne := Fragment.opener_ne_closer hg
  have hclose : Group.close? opener closer 0 (inner ++ closer :: after) = some (inner, after) := by
    induction inner with
    | nil => rw [List.nil_append, Group.close?, if_pos ⟨rfl, hne.symm, rfl⟩]
    | cons c inner ih =>
      have hno := Group.ne_of_isPlain hg (hinner c List.mem_cons_self)
      rw [List.cons_append, Group.close?, if_neg fun h => hno.2 h.1, Group.depthAfter, if_neg hno.1,
        if_neg hno.2, ih fun d hd => hinner d (List.mem_cons_of_mem c hd)]
      rfl
  rw [Group.read, hclose]
  rfl

namespace Token

/-- A count that is written, or nothing. -/
def IsMark (text : Text) : Prop := ∀ c ∈ text.head?, c = Delimiter.multiply

theorem isMark_nil : IsMark [] := nofun

theorem star_append {text mark : Text} (h : ∀ c ∈ text, c ≠ Delimiter.multiply) (hmark : IsMark mark) :
    beforeStar (text ++ mark) = text ∧ countAfterStar? (text ++ mark) = countAfterStar? mark := by
  have hall : ∀ c ∈ text, decide (c ≠ Delimiter.multiply) = true := by simpa using h
  have hstop : ∀ c ∈ mark.head?, decide (c ≠ Delimiter.multiply) = false :=
    fun c hc => decide_eq_false fun hne => hne (hmark c hc)
  obtain ⟨htake, hdrop⟩ := Text.takeWhile_append_dropWhile hall hstop
  exact ⟨htake, by rw [countAfterStar?, countAfterStar?, hdrop, Text.dropWhile_eq_self hstop]⟩

/-- A modifier is read off its fragment, and so is the count behind it. -/
theorem readFragment_write {m : Modifier} (h : m.Writable) {mark : Text} (hmark : IsMark mark) :
    readFragment (m.write ++ mark) = (.modifier m, countAfterStar? mark) := by
  cases m with
  | id value =>
    obtain ⟨hvalue, hcount⟩ := star_append (not_star_of_isBare h) hmark
    rw [Modifier.write_id, List.cons_append, readFragment, if_neg (by decide), if_neg (by decide),
      if_pos rfl, hvalue, hcount]
  | className value =>
    obtain ⟨hvalue, hcount⟩ := star_append (not_star_of_isBare h) hmark
    rw [Modifier.write_className, List.cons_append, readFragment, if_neg (by decide),
      if_neg (by decide), if_neg (by decide), if_pos rfl, hvalue, hcount]
  | attributes list =>
    have hread := Group.read_of_isPlain Group.attributes_mem_groups h mark
    change readGroup _ _ _ ((list ++ [Delimiter.attributesClose]) ++ mark) = _
    rw [List.append_assoc, List.singleton_append, readGroup, hread]
  | text content =>
    have hread := Group.read_of_isPlain Group.text_mem_groups h mark
    change readGroup _ _ _ ((content ++ [Delimiter.textClose]) ++ mark) = _
    rw [List.append_assoc, List.singleton_append, readGroup, hread]

theorem readFragment_of_not_mem {c : Char} (hc : c ∉ Delimiter.modifiers) (text : Text) :
    readFragment (c :: text) = (.name (beforeStar (c :: text)), countAfterStar? (c :: text)) := by
  simp only [Delimiter.modifiers, List.mem_cons, List.not_mem_nil, or_false, not_or] at hc
  obtain ⟨h₁, h₂, h₃, h₄⟩ := hc
  rw [readFragment, if_neg h₃, if_neg h₄, if_neg h₁, if_neg h₂]

theorem readFragment_of_mem {c : Char} (hc : c ∈ Delimiter.modifiers) (text : Text) :
    ∃ m, (readFragment (c :: text)).1 = .modifier m := by
  simp only [Delimiter.modifiers, List.mem_cons, List.not_mem_nil, or_false] at hc
  rcases hc with rfl | rfl | rfl | rfl <;> exact ⟨_, rfl⟩

/-- A name is read off a fragment that begins like no modifier and ends where the name does or with a
star behind it. -/
theorem readFragment_name_append {name : Text} (hne : name ≠ [])
    (hhead : ∀ c ∈ name.head?, c ∉ Delimiter.modifiers) (hstar : ∀ c ∈ name, c ≠ Delimiter.multiply)
    {mark : Text} (hmark : IsMark mark) :
    readFragment (name ++ mark) = (.name name, countAfterStar? mark) := by
  obtain ⟨hvalue, hcount⟩ := star_append hstar hmark
  obtain ⟨c, rest, rfl⟩ := List.exists_cons_of_ne_nil hne
  rw [List.cons_append] at hvalue hcount ⊢
  rw [readFragment_of_not_mem (hhead c rfl), hvalue, hcount]

theorem readFragment_name {name : Text} (hne : name ≠ []) (h : ∀ c ∈ name, Delimiter.isBare c = true)
    {mark : Text} (hmark : IsMark mark) :
    readFragment (name ++ mark) = (.name name, countAfterStar? mark) := by
  refine readFragment_name_append hne (fun c hc hm => ?_) (not_star_of_isBare h) hmark
  have hbare := modifiers_of_isBare (h c (List.mem_of_mem_head? hc))
  simp [hm] at hbare

/-- Where a name was read, it was written like that. -/
theorem exists_mark_of_name {f name : Text} (h : (readFragment f).1 = .name name) (hne : name ≠ []) :
    ∃ mark, f = name ++ mark ∧ IsMark mark ∧ (∀ c ∈ name.head?, c ∉ Delimiter.modifiers) ∧
      ∀ c ∈ name, c ≠ Delimiter.multiply := by
  cases f with
  | nil =>
    cases h
    exact absurd rfl hne
  | cons c text =>
    by_cases hc : c ∈ Delimiter.modifiers
    · obtain ⟨m, hm⟩ := readFragment_of_mem hc text
      rw [hm] at h
      cases h
    · rw [readFragment_of_not_mem hc] at h
      cases h
      refine ⟨(c :: text).dropWhile (· ≠ Delimiter.multiply), List.takeWhile_append_dropWhile.symm,
        fun d hd => ?_, fun d hd => ?_, fun d hd => ?_⟩
      · have hfirst := List.head?_dropWhile_not (· ≠ Delimiter.multiply) (c :: text)
        rw [Option.mem_def.1 hd] at hfirst
        simpa using hfirst
      · have hprefix : beforeStar (c :: text) <+: c :: text := List.takeWhile_prefix _
        obtain ⟨rest, hrest⟩ := hprefix
        obtain ⟨d', name, hname⟩ := List.exists_cons_of_ne_nil hne
        rw [hname] at hd hrest
        cases hd
        obtain ⟨rfl, -⟩ := List.cons.inj hrest
        exact hc
      · simpa using List.all_eq_true.1 List.all_takeWhile d hd

/-! ## The fragments of a term -/

theorem piece_cons {c : Char} {rest : Text} (hc : isPlain c = true) (hclimb : c ≠ Delimiter.climb)
    (h : ∀ d ∈ rest, Delimiter.isBare d = true) : Piece Delimiter.modifiers (c :: rest) := by
  refine Fragment.piece_of_plain (List.forall_mem_cons.2 ⟨hc, fun d hd => isPlain_of_isBare (h d hd)⟩)
    (fun d hd => modifiers_of_isBare (h d hd)) fun he => hclimb (List.cons.inj he).1

theorem piece_name {name : Text} (hne : name ≠ []) (h : ∀ c ∈ name, Delimiter.isBare c = true) :
    Piece Delimiter.modifiers name := by
  obtain ⟨c, rest, rfl⟩ := List.exists_cons_of_ne_nil hne
  have hc := h c List.mem_cons_self
  exact piece_cons (isPlain_of_isBare hc) (ne_of_isBare hc rfl)
    fun d hd => h d (List.mem_cons_of_mem c hd)

theorem piece_write {m : Modifier} (h : m.Writable) : Piece Delimiter.modifiers m.write := by
  cases m with
  | id value => rw [Modifier.write_id]; exact piece_cons rfl (by decide) h
  | className value => rw [Modifier.write_className]; exact piece_cons rfl (by decide) h
  | attributes list => exact Fragment.piece_group Group.attributes_mem_groups h
  | text content => exact Fragment.piece_group Group.text_mem_groups h

theorem opens_write_append (m : Modifier) (text : Text) :
    Fragment.opensWith Delimiter.modifiers (m.write ++ text) = true := by
  cases m <;> rfl

theorem opens_modifiers (ms : List Modifier) : ms.flatMap Modifier.write = [] ∨
    Fragment.opensWith Delimiter.modifiers (ms.flatMap Modifier.write) = true := by
  cases ms with
  | nil => exact .inl rfl
  | cons m ms => exact .inr (opens_write_append m _)

/-- The fragments that a first text, the modifiers behind it and a mark at the end make: the last one has
the mark. -/
def fragments (mark : Text) : Text → List Modifier → List Text
  | first, [] => [first ++ mark]
  | first, m :: ms => first :: fragments mark m.write ms

theorem splitsInto_fragments {mark : Text} (hplain : ∀ c ∈ mark, isPlain c = true)
    (hmark : ∀ c ∈ mark, Delimiter.modifiers.contains c = false) : ∀ {ms : List Modifier} {first : Text},
      Piece Delimiter.modifiers first → (∀ m ∈ ms, m.Writable) →
        SplitsInto Delimiter.modifiers (first ++ (ms.flatMap Modifier.write ++ mark))
          (fragments mark first ms)
  | [], first, hfirst, _ => by
    have hsplits := Fragment.splitsInto_nil.append (hfirst.append_plain hplain hmark) (.inl rfl)
    rwa [List.append_nil] at hsplits
  | m :: ms, first, hfirst, hw => by
    have hrest := splitsInto_fragments hplain hmark (piece_write (hw m List.mem_cons_self))
      fun n hn => hw n (List.mem_cons_of_mem m hn)
    rw [List.flatMap_cons, List.append_assoc]
    exact hrest.append hfirst (.inr (opens_write_append m _))

/-- What a fragment says with the mark behind it and without. -/
structure Says (mark first : Text) (part : Part) (count : Option Nat) : Prop where
  without : readFragment first = (part, count)
  marked : readFragment (first ++ mark) = (part, count.or (countAfterStar? mark))

theorem says_write {m : Modifier} (h : m.Writable) {mark : Text} (hmark : IsMark mark) :
    Says mark m.write (.modifier m) none where
  without := by
    have hread := readFragment_write h isMark_nil
    rwa [List.append_nil] at hread
  marked := readFragment_write h hmark

/-- The first fragment says its part, the others are the modifiers, and the first count that is written
holds. -/
theorem read_fragments {mark : Text} (hmark : IsMark mark) : ∀ {ms : List Modifier} {first : Text}
    {part : Part} {count : Option Nat}, (∀ m ∈ ms, m.Writable) → Says mark first part count →
      (fragments mark first ms).map (fun f => (readFragment f).1) = part :: ms.map .modifier ∧
        (fragments mark first ms).findSome? (fun f => (readFragment f).2) =
          count.or (countAfterStar? mark)
  | [], first, part, count, _, hfirst => by
    refine ⟨?_, ?_⟩
    · rw [fragments, List.map_singleton, hfirst.marked]
      rfl
    · rw [fragments, List.findSome?_singleton, hfirst.marked]
  | m :: ms, first, part, count, hw, hfirst => by
    obtain ⟨hparts, hcount⟩ := read_fragments hmark (fun n hn => hw n (List.mem_cons_of_mem m hn))
      (says_write (hw m List.mem_cons_self) hmark)
    refine ⟨?_, ?_⟩
    · rw [fragments, List.map_cons, hfirst.without, hparts, List.map_cons]
    · rw [fragments, List.findSome?_cons, hfirst.without, hcount]
      cases count <;> rfl

/-! ## The operator of a term -/

theorem ofRun_write (operator : Operator) (h : operator = .start ∨ operator.Joins) :
    Operator.ofRun operator.write = operator := by
  cases operator with
  | start => rfl
  | child => rfl
  | sibling => rfl
  | climb levels =>
    have hpos : 0 < levels := h.elim nofun id
    simp [Operator.ofRun, Operator.write, hpos]

theorem structural_of_mem_write {operator : Operator} :
    ∀ c ∈ operator.write, Delimiter.structural.contains c = true := by
  intro c hc
  cases operator with
  | start => cases hc
  | child => rw [List.mem_singleton.1 hc]; rfl
  | sibling => rw [List.mem_singleton.1 hc]; rfl
  | climb levels => rw [List.eq_of_mem_replicate hc]; rfl

/-- The operator characters in front are those of the operator. -/
theorem takeWhile_write {s : Spelling} (h : s.Writable) :
    s.write.takeWhile Delimiter.structural.contains = s.operator.write ∧
      s.write.dropWhile Delimiter.structural.contains = s.body := by
  refine Text.takeWhile_append_dropWhile structural_of_mem_write fun c hc => ?_
  have hopens := (Spelling.trailing_body h).opens
  obtain ⟨d, rest, hbody⟩ := List.exists_cons_of_ne_nil (Spelling.body_ne_nil h)
  rw [hbody] at hopens hc
  cases hc
  exact hopens

/-! ## Counts -/

theorem isMark_mark (s : Spelling) (place : CountPlace) : IsMark (s.mark place) := by
  intro c hc
  unfold Spelling.mark at hc
  split at hc
  · split at hc
    · cases hc
      rfl
    · cases hc
  · cases hc

theorem countAfterStar?_ofNat {n : Nat} (h : n ≤ maxCount) :
    countAfterStar? (Delimiter.multiply :: Text.ofNat n) = some n := by
  have hall : ∀ c ∈ Text.ofNat n, c.isDigit = true := fun c hc =>
    Nat.isDigit_of_mem_toDigits (by decide) (by decide) hc
  have htake := (Text.takeWhile_append_dropWhile (v := []) hall nofun).1
  rw [List.append_nil] at htake
  have hdrop : ((Delimiter.multiply :: Text.ofNat n).dropWhile (· ≠ Delimiter.multiply)).drop 1 =
      Text.ofNat n := rfl
  rw [countAfterStar?, hdrop, htake]
  split
  · rename_i hnil
    exact absurd hnil Nat.toDigits_ne_nil
  · rw [Text.toNat_ofNat, Nat.min_eq_left h]

theorem countAfterStar?_mark {s : Spelling} (h : s.Writable) (place : CountPlace) :
    countAfterStar? (s.mark place) =
      s.counted.bind fun counted => if counted.1 = place then some counted.2 else none := by
  unfold Spelling.mark
  rcases hcounted : s.counted with _ | ⟨p, n⟩
  · rfl
  · rw [Option.bind_some]
    by_cases hp : p = place
    · simp only [hp, if_true]
      exact countAfterStar?_ofNat (h.count_le (p, n) hcounted)
    · simp only [hp, if_false]
      rfl

/-- A count has one place only. -/
theorem mark_eq_nil (s : Spelling) : s.mark .behindName = [] ∨ s.mark .atEnd = [] := by
  unfold Spelling.mark
  rcases s.counted with _ | ⟨_ | _, n⟩
  · exact .inl rfl
  · exact .inr rfl
  · exact .inl rfl

theorem says_head {s : Spelling} (h : s.Writable) :
    Says (s.mark .atEnd) s.head (.name s.name) (countAfterStar? (s.mark .behindName)) where
  without := readFragment_name h.name_ne_nil h.name (isMark_mark s _)
  marked := by
    rw [Spelling.head, List.append_assoc]
    rcases mark_eq_nil s with hname | hend
    · rw [hname]
      exact readFragment_name h.name_ne_nil h.name (isMark_mark s _)
    · have hread := readFragment_name h.name_ne_nil h.name (isMark_mark s .behindName)
      rw [hend, List.append_nil, hread, show countAfterStar? [] = none from rfl, Option.or_none]

/-- The count that is written is the count of the term. -/
theorem count_marks {s : Spelling} (h : s.Writable) :
    ((countAfterStar? (s.mark .behindName)).or (countAfterStar? (s.mark .atEnd))).getD 1 =
      s.term.count := by
  rw [countAfterStar?_mark h, countAfterStar?_mark h, Spelling.term]
  rcases s.counted with _ | ⟨_ | _, n⟩ <;> rfl

/-! ## The token of a term -/

theorem split_body {s : Spelling} (h : s.Writable) : Fragment.split Delimiter.modifiers s.body =
    fragments (s.mark .atEnd) s.head s.modifiers := by
  have hname : Piece Delimiter.modifiers s.head :=
    (piece_name h.name_ne_nil h.name).append_plain (fun c hc => (s.isPlain_mark _ c hc).1)
      fun c hc => (s.isPlain_mark _ c hc).2.2
  exact (splitsInto_fragments (fun c hc => (s.isPlain_mark _ c hc).1)
    (fun c hc => (s.isPlain_mark _ c hc).2.2) hname h.modifiers).split_eq

def Part.modifier? : Part → Option Modifier
  | .name _ => none
  | .modifier m => some m

/-- A name in front and modifiers behind it make the name and the modifiers of a token. -/
theorem nameOf_of_parts {fs : List Text} {name : Text} {ms : List Modifier}
    (h : fs.map (fun f => (readFragment f).1) = .name name :: ms.map .modifier) :
    nameOf fs = name ∧ fs.filterMap modifier? = ms := by
  obtain ⟨f, rest, rfl, hf, hrest⟩ := List.map_eq_cons_iff.1 h
  have hmodifiers : rest.filterMap modifier? = ms := by
    have hparts : modifier? = Part.modifier? ∘ fun f => (readFragment f).1 := by
      funext f
      rw [modifier?, Function.comp_apply]
      cases (readFragment f).1 <;> rfl
    rw [hparts, ← List.filterMap_map, hrest, List.filterMap_map]
    exact List.filterMap_some
  refine ⟨by rw [nameOf, hf], ?_⟩
  rw [List.filterMap_cons_none (by rw [modifier?, hf]), hmodifiers]

/-- The token that a spelled term makes. -/
theorem parse_write {s : Spelling} (h : s.Writable) (ho : s.operator = .start ∨ s.operator.Joins)
    (start : Nat) : parse start s.write =
      { toTerm := s.term
        span := ⟨start, start + s.write.byteLength⟩
        lead := s.operator.write
        trail := s.mark .behindName ++ s.tail } := by
  obtain ⟨hlead, hbody⟩ := takeWhile_write h
  obtain ⟨hparts, hcount⟩ := read_fragments (isMark_mark s .atEnd) h.modifiers (says_head h)
  obtain ⟨hname, hmodifiers⟩ := nameOf_of_parts hparts
  have htrail : s.body.drop s.name.length = s.mark .behindName ++ s.tail := by
    rw [Spelling.body, Spelling.head, List.append_assoc, List.drop_left]
  rw [parse, hlead, hbody, split_body h, ofRun_write _ ho, hname, hmodifiers, hcount, count_marks h,
    htrail]
  rfl

theorem map_toTerm_parseAll : ∀ {ss : List Spelling}, (∀ s ∈ ss, s.Writable) →
    (∀ s ∈ ss, s.operator = .start ∨ s.operator.Joins) → ∀ start : Nat,
      (parseAll start (ss.map Spelling.write)).map toTerm = ss.map Spelling.term
  | [], _, _, _ => rfl
  | s :: ss, hw, ho, start => by
    rw [List.map_cons, parseAll, List.map_cons,
      parse_write (hw s List.mem_cons_self) (ho s List.mem_cons_self),
      map_toTerm_parseAll (fun r hr => hw r (List.mem_cons_of_mem s hr))
        fun r hr => ho r (List.mem_cons_of_mem s hr), List.map_cons]

theorem tokenize_eq_parseAll {ss : List Spelling} (h : Spelling.WritableAll ss) :
    tokenize (ss.flatMap Spelling.write) = parseAll 0 (ss.map Spelling.write) := by
  rw [tokenize, (Spelling.splitsInto_write h).split_eq]

/-- The terms of the tokens are the terms that were spelled. -/
theorem map_toTerm_tokenize {ss : List Spelling} (h : Spelling.WritableAll ss) :
    (tokenize (ss.flatMap Spelling.write)).map toTerm = ss.map Spelling.term := by
  rw [tokenize_eq_parseAll h]
  cases ss with
  | nil => rfl
  | cons s ss =>
    obtain ⟨hstart, hj, hw⟩ := h
    refine map_toTerm_parseAll hw (fun r hr => ?_) 0
    rcases List.mem_cons.1 hr with rfl | hr
    · exact .inl hstart
    · exact .inr (hj r hr)

/-- The tokens of written terms are the terms. -/
theorem map_toTerm_tokenize_write {ts : List Term} (h : WritableTerms ts) :
    (tokenize (ts.flatMap Term.write)).map toTerm = ts := by
  have hterms := map_toTerm_tokenize h.spellings
  rw [flatMap_write_spelling, List.map_map] at hterms
  refine hterms.trans ((List.map_congr_left fun t ht => ?_).trans (List.map_id _))
  exact (h.writable t ht).term_spelling

theorem map_span_parseAll (start : Nat) (fs : List Text) :
    (parseAll start fs).map span = Fragment.spans start fs := by
  induction fs generalizing start with
  | nil => rfl
  | cons f fs ih => rw [parseAll, List.map_cons, ih]; rfl

/-- **The tokens of spelled terms are the terms**: their operators, names, counts and modifiers are read
back, and each token has the text that was written for it and the span of this text. -/
theorem tokenize_spellings {ss : List Spelling} (h : Spelling.WritableAll ss) :
    (tokenize (ss.flatMap Spelling.write)).map toTerm = ss.map Spelling.term ∧
    (tokenize (ss.flatMap Spelling.write)).map raw = ss.map Spelling.write ∧
    (tokenize (ss.flatMap Spelling.write)).map span =
      Fragment.spans 0 (ss.map Spelling.write) := by
  refine ⟨map_toTerm_tokenize h, ?_, ?_⟩
  · rw [tokenize_eq_parseAll h, map_raw_parseAll]
  · rw [tokenize_eq_parseAll h, map_span_parseAll]

/-- Groups full of operators, and counts in every place. -/
def starred : List Spelling :=
  [{ name := "ul".toList
     counted := some (.behindName, 0)
     modifiers := [.id [], .text ">a+b^^c#d.e*3".toList, .className "x".toList,
       .attributes "^ k='>*9' .#".toList] },
   { operator := .climb 2
     name := "lí".toList
     counted := some (.atEnd, 1000)
     modifiers := [.attributes ">^".toList, .text "*5".toList] },
   { operator := .sibling
     name := "b".toList
     counted := some (.atEnd, 7)
     modifiers := [.text [], .className "y".toList] },
   { operator := .child, name := "p".toList, counted := some (.atEnd, 12) },
   { operator := .climb 1, name := "q".toList, modifiers := [.text "^".toList] }]

theorem tokenize_starred : Spelling.WritableAll starred ∧
    starred.flatMap Spelling.write =
      "ul*0#\x7b>a+b^^c#d.e*3\x7d.x[^ k='>*9' .#]^^lí[>^]\x7b*5\x7d*1000+b\x7b\x7d.y*7>p*12^q\x7b^\x7d".toList ∧
    (tokenize (starred.flatMap Spelling.write)).map toTerm = starred.map Spelling.term ∧
    (tokenize (starred.flatMap Spelling.write)).map raw = starred.map Spelling.write ∧
    (tokenize (starred.flatMap Spelling.write)).map span =
      Fragment.spans 0 (starred.map Spelling.write) :=
  ⟨by decide, by decide, tokenize_spellings (by decide)⟩

end Token
end Shorthand
