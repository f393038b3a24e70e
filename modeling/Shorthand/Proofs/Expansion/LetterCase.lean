import Shorthand.Expansion
import Shorthand.Proofs.Token.LetterCase

/-! # Aliases in any letter case

The rules do not look at letter case, and an alias stands for the same name in every case. Main statement: two
abbreviations that differ only in the letter case of aliases have the same expansion (`expand_recased`). -/

namespace Shorthand
open Text (small)

/-! ## Rules -/

namespace Rules

theorem beginsWith_small (keyword text : Text) : beginsWith keyword (small text) = beginsWith keyword text := by
  have htwice : (small text).map Char.toLower = text.map Char.toLower := by
    rw [small, List.map_map]
    exact List.map_congr_left fun c _ => toLower_invariant (f := Char.toLower) (by decide) c
  rw [beginsWith, htwice, beginsWith]

theorem hasStraySpace_small (text : Text) : hasStraySpace (small text) = hasStraySpace text := by
  have hopeners : ∀ c : Char, (!spaceOpeners.contains c.toLower) = !spaceOpeners.contains c := fun c => by
    rw [contains_toLower (Text.forall_mem_of_all (by decide))]
  have hclosers : ∀ c : Char, (!spaceClosers.contains c.toLower) = !spaceClosers.contains c := fun c => by
    rw [contains_toLower (Text.forall_mem_of_all (by decide))]
  have hreverse : (small text).reverse = small text.reverse := List.map_reverse.symm
  rw [hasStraySpace, hreverse, Text.takeWhile_small hopeners, Text.takeWhile_small hclosers,
    Text.contains_small (by decide), Text.contains_small (by decide), hasStraySpace]

theorem balanced_small (opener closer : Char) (hopener : opener.isAlpha = false)
    (hcloser : closer.isAlpha = false) (text : Text) :
    balanced opener closer (small text) = balanced opener closer text := by
  rw [balanced, Text.count_small hopener, Text.count_small hcloser, balanced]

theorem find?_reserved_small (text : Text) :
    (small text).find? reserved.contains = text.find? reserved.contains := by
  have hkinds : reserved.contains ∘ Char.toLower = reserved.contains :=
    funext fun c => contains_toLower (Text.forall_mem_of_all (by decide)) c
  have hsame : ∀ c, reserved.contains c = true → c.toLower = c := fun c =>
    forall_toLower (P := fun c d => reserved.contains c = true → d = c) (fun _ _ => rfl) (by decide) c
  rw [small, List.find?_map, hkinds]
  cases hfound : text.find? reserved.contains with
  | none => rfl
  | some c => rw [Option.map_some, hsame c (List.find?_some hfound)]

theorem badEnd?_small (text : Text) : badEnd? (small text) = badEnd? text := by
  have hkinds : ∀ c, canEndWith c.toLower = canEndWith c := toLower_invariant (by decide)
  have hsame : ∀ c, canEndWith c = false → c.toLower = c := fun c =>
    forall_toLower (P := fun c d => canEndWith c = false → d = c) (fun _ _ => rfl) (by decide) c
  rw [badEnd?, badEnd?, small, List.getLast?_map]
  cases text.getLast? with
  | none => rfl
  | some c =>
    cases hc : canEndWith c with
    | true => simp [Option.filter, hkinds, hc]
    | false => rw [Option.map_some, hsame c hc]

/-- **The verdict does not depend on letter case.** -/
theorem check_small (rules : Rules) (text : Text) : rules.check (small text) = rules.check text := by
  have hempty : (small text).isEmpty = text.isEmpty := by cases text <;> rfl
  simp only [check, hempty, beginsWith_small, hasStraySpace_small, find?_reserved_small, badEnd?_small,
    balanced_small Delimiter.textOpen Delimiter.textClose rfl rfl,
    balanced_small Delimiter.attributesOpen Delimiter.attributesClose rfl rfl]

theorem check_of_small (rules : Rules) {s t : Text} (h : small s = small t) :
    rules.check s = rules.check t := by
  rw [← check_small, h, check_small]

end Rules

/-! ## Names -/

namespace Alias.Table

theorem isNamespaced_small (name : Text) : isNamespaced (small name) = isNamespaced name := by
  have hcolon := toLower_eq_iff (m := ':') (by decide)
  have hall : ∀ word : Text, (small word).all Unicode.isWord = word.all Unicode.isWord := by
    intro word
    rw [small, List.all_map, (funext Unicode.isWord_toLower : Unicode.isWord ∘ Char.toLower = _)]
  have hempty : ∀ word : Text, (small word).isEmpty = word.isEmpty := by
    intro word
    cases word <;> rfl
  rw [isNamespaced, isNamespaced, Text.dropWhile_small Unicode.isWord_toLower,
    Text.takeWhile_small Unicode.isWord_toLower, hempty]
  cases name.dropWhile Unicode.isWord with
  | nil => rfl
  | cons c word =>
    by_cases hc : c = ':'
    · subst hc
      change (_ && !(small word).isEmpty && (small word).all Unicode.isWord) = _
      rw [hempty, hall]
      rfl
    · have hc' : c.toLower ≠ ':' := mt (hcolon c).1 hc
      simp [hc, hc']

theorem lookup?_small (table : Table) (key : Text) : table.lookup? (small key) = table.lookup? key := by
  rw [lookup?, Unicode.lowercase_small, lookup?]

/-- The name is an alias of the table and not namespaced. -/
def knows (table : Table) (name : Text) : Bool := !isNamespaced name && (table.lookup? name).isSome

/-- An alias stands for the same name in every letter case. -/
theorem resolveName_of_small {table : Table} {name name' : Text} (h : small name' = small name)
    (hknows : table.knows name = true) : table.resolveName name' = table.resolveName name := by
  have hnamespaced : isNamespaced name' = isNamespaced name := by
    rw [← isNamespaced_small, h, isNamespaced_small]
  have hlookup : table.lookup? name' = table.lookup? name := by rw [← lookup?_small, h, lookup?_small]
  have hempty : name'.isEmpty = name.isEmpty := by
    rw [Bool.eq_iff_iff, List.isEmpty_iff_length_eq_zero, List.isEmpty_iff_length_eq_zero,
      Text.length_eq_of_small h]
  obtain ⟨hplain, hsome⟩ := Bool.and_eq_true_iff.1 hknows
  obtain ⟨value, hvalue⟩ := Option.isSome_iff_exists.1 hsome
  rw [Bool.not_eq_true'] at hplain
  rw [resolveName, resolveName, hnamespaced, hlookup, hempty, hvalue, hplain, Bool.or_false]
  split
  · rename_i hnil
    rw [List.isEmpty_iff.1 hnil, List.isEmpty_iff.1 (hempty.trans hnil)]
  · rfl

/-- A token is resolved by what it says. -/
theorem toTerm_resolve (table : Table) (token : Token) :
    (table.resolve token).toTerm = { token.toTerm with name := table.resolveName token.name } := rfl

end Alias.Table

/-! ## Places -/

def Span.Covers (s : Span) (offset : Nat) : Prop := s.start ≤ offset ∧ offset < s.stop

instance (s : Span) (offset : Nat) : Decidable (s.Covers offset) := inferInstanceAs (Decidable (_ ∧ _))

/-- Where the name of a token stands in the abbreviation. -/
def Token.namePlace (token : Token) : Span :=
  ⟨token.span.start + token.nameRange.start, token.span.start + token.nameRange.stop⟩

namespace Token

theorem namePlace_parse (start : Nat) (raw : Text) (offset : Nat) :
    (parse start raw).namePlace.Covers (start + offset) ↔
      (parse start raw).lead.byteLength ≤ offset ∧
        offset < (parse start raw).lead.byteLength + (parse start raw).name.byteLength := by
  change start + _ ≤ start + offset ∧ start + offset < start + _ ↔ _
  rw [Nat.add_le_add_iff_left, Nat.add_lt_add_iff_left]
  rfl

theorem namePlace_stop_le (start : Nat) (raw : Text) :
    (parse start raw).namePlace.stop ≤ start + raw.byteLength := by
  have hraw := congrArg Text.byteLength (raw_parse start raw)
  rw [Token.raw, Text.byteLength_append, Text.byteLength_append] at hraw
  change start + ((parse start raw).lead.byteLength + (parse start raw).name.byteLength) ≤ _
  omega

theorem le_namePlace_start {token : Token} : ∀ {fs : List Text} {start : Nat},
    token ∈ parseAll start fs → start ≤ token.namePlace.start
  | [], _, h => nomatch h
  | f :: fs, start, h => by
    rw [parseAll, List.mem_cons] at h
    rcases h with rfl | h
    · exact Nat.le_add_right start _
    · exact Nat.le_trans (Nat.le_add_right start _) (le_namePlace_start h)

end Token

namespace Text

theorem byteLength_take_lt {text : Text} {i : Nat} (h : i < text.length) :
    byteLength (text.take i) < byteLength text := by
  have hcut := congrArg byteLength (List.take_append_drop i text)
  have hrest : 0 < (text.drop i).length := by rw [List.length_drop]; omega
  have hbytes := length_le_byteLength (text.drop i)
  rw [byteLength_append] at hcut
  omega

/-- A text that differs from another one only in its first bytes differs in the text that these write. -/
theorem exists_front {name trail g : Text} (hsmall : small g = small (name ++ trail))
    (h : ∀ i, (name ++ trail)[i]? ≠ g[i]? → byteLength ((name ++ trail).take i) < byteLength name) :
    ∃ name', g = name' ++ trail ∧ small name' = small name := by
  induction name generalizing g with
  | nil =>
    refine ⟨[], List.ext_getElem? fun i => ?_, rfl⟩
    exact Decidable.byContradiction fun hne => absurd (h i (Ne.symm hne)) (Nat.not_lt_zero _)
  | cons c name ih =>
    cases g with
    | nil => cases hsmall
    | cons d g =>
      obtain ⟨hd, hrest⟩ := List.cons.inj hsmall
      have hbounds : ∀ i, (name ++ trail)[i]? ≠ g[i]? →
          byteLength ((name ++ trail).take i) < byteLength name := by
        intro i hi
        have hbound := h (i + 1) (by simpa using hi)
        simp only [List.cons_append, List.take_succ_cons, byteLength_cons] at hbound
        omega
      obtain ⟨name', rfl, hname⟩ := ih hrest hbounds
      exact ⟨d :: name', rfl, by rw [small_cons, small_cons, hd, hname]⟩

/-- Texts that agree outside a range of bytes of one of them differ in the text that stands there. -/
theorem exists_middle {lead name trail g : Text} (hsmall : small g = small (lead ++ (name ++ trail)))
    (h : ∀ i, (lead ++ (name ++ trail))[i]? ≠ g[i]? →
      byteLength lead ≤ byteLength ((lead ++ (name ++ trail)).take i) ∧
        byteLength ((lead ++ (name ++ trail)).take i) < byteLength lead + byteLength name) :
    ∃ name', g = lead ++ (name' ++ trail) ∧ small name' = small name := by
  induction lead generalizing g with
  | nil =>
    refine exists_front hsmall fun i hi => ?_
    have hbound := (h i hi).2
    rwa [byteLength_nil, Nat.zero_add] at hbound
  | cons c lead ih =>
    cases g with
    | nil => cases hsmall
    | cons d g =>
      have hfirst : c = d := by
        refine Decidable.byContradiction fun hne => ?_
        have hbound := (h 0 (by simpa using hne)).1
        have := c.utf8Size_pos
        simp only [List.take_zero, byteLength_nil, byteLength_cons] at hbound
        omega
      have hbounds : ∀ i, (lead ++ (name ++ trail))[i]? ≠ g[i]? →
          byteLength lead ≤ byteLength ((lead ++ (name ++ trail)).take i) ∧
            byteLength ((lead ++ (name ++ trail)).take i) < byteLength lead + byteLength name := by
        intro i hi
        have hbound := h (i + 1) (by simpa using hi)
        simp only [List.cons_append, List.take_succ_cons, byteLength_cons] at hbound
        omega
      obtain ⟨name', rfl, hname⟩ := ih (List.cons.inj hsmall).2 hbounds
      exact ⟨name', by rw [hfirst]; rfl, hname⟩

end Text

/-! ## Abbreviations -/

/-- The abbreviations differ in the case of ASCII letters alone, and only inside names of tokens that are
aliases. -/
structure Recased (table : Alias.Table) (a b : Text) : Prop where
  letters : small a = small b
  inside : ∀ i, a[i]? ≠ b[i]? → ∃ token ∈ Token.tokenize a,
    table.knows token.name = true ∧ token.namePlace.Covers (Text.byteLength (a.take i))

theorem recased_of_forall_lt {table : Alias.Table} {a b : Text} (letters : small a = small b)
    (h : ∀ i < a.length, a[i]? = b[i]? ∨ ∃ token ∈ Token.tokenize a,
      table.knows token.name = true ∧ token.namePlace.Covers (Text.byteLength (a.take i))) :
    Recased table a b where
  letters := letters
  inside i hi := by
    by_cases hlt : i < a.length
    · exact (h i hlt).resolve_left hi
    · have hle : a.length ≤ i := Nat.le_of_not_lt hlt
      rw [List.getElem?_eq_none hle, List.getElem?_eq_none (Text.length_eq_of_small letters ▸ hle)] at hi
      exact absurd rfl hi

namespace Token

/-- A token that is written differently inside a name that is an alias is resolved to the same. -/
theorem toTerm_resolve_parse {table : Alias.Table} (start start' : Nat) {f g : Text}
    (hsmall : small g = small f)
    (h : ∀ i, f[i]? ≠ g[i]? → table.knows (parse start f).name = true ∧
      (parse start f).namePlace.Covers (start + Text.byteLength (f.take i))) :
    (table.resolve (parse start' g)).toTerm = (table.resolve (parse start f)).toTerm := by
  by_cases heq : f = g
  · rw [heq]
    rfl
  · obtain ⟨i, hi⟩ : ∃ i, f[i]? ≠ g[i]? := by
      refine Classical.not_forall.1 fun hall => heq (List.ext_getElem? hall)
    have hraw : (parse start f).lead ++ ((parse start f).name ++ (parse start f).trail) = f := by
      rw [← List.append_assoc]
      exact raw_parse start f
    obtain ⟨name', hg, hname⟩ := Text.exists_middle (hsmall.trans (congrArg small hraw.symm))
      fun i hi => by
        rw [hraw] at hi ⊢
        exact (namePlace_parse start f _).1 (h i hi).2
    have hparse := toTerm_parse_rename start start' f hname
    rw [Token.raw, List.append_assoc] at hparse
    change (parse start' ((parse start f).lead ++ (name' ++ (parse start f).trail))).toTerm = _ at hparse
    rw [← hg] at hparse
    have hresolve := Alias.Table.resolveName_of_small hname (h i hi).1
    rw [Alias.Table.toTerm_resolve, Alias.Table.toTerm_resolve, congrArg Term.name hparse, hparse, ← hresolve]
    rfl

/-- Fragments that are written differently only inside names that are aliases make tokens that are resolved
to the same. -/
theorem map_toTerm_resolve_parseAll {table : Alias.Table} {fs : List Text} : ∀ {gs : List Text}
    (start start' : Nat), gs.map small = fs.map small →
      (∀ i, fs.flatten[i]? ≠ gs.flatten[i]? → ∃ token ∈ parseAll start fs,
        table.knows token.name = true ∧
          token.namePlace.Covers (start + Text.byteLength (fs.flatten.take i))) →
      (parseAll start' gs).map (fun token => (table.resolve token).toTerm) =
        (parseAll start fs).map fun token => (table.resolve token).toTerm := by
  induction fs with
  | nil =>
    intro gs start start' hsmall h
    rw [List.map_nil, List.map_eq_nil_iff] at hsmall
    rw [hsmall]
    rfl
  | cons f fs ih =>
    intro gs start start' hsmall h
    obtain ⟨g, gs, rfl, hg, hgs⟩ := List.map_eq_cons_iff.1 hsmall
    have hlength : g.length = f.length := Text.length_eq_of_small hg
    simp only [List.flatten_cons] at h
    rw [parseAll, parseAll, List.map_cons, List.map_cons]
    congr 1
    · refine toTerm_resolve_parse start start' hg fun i hi => ?_
      have hlt : i < f.length := by
        refine Nat.lt_of_not_le fun hle => hi ?_
        rw [List.getElem?_eq_none hle, List.getElem?_eq_none (hlength ▸ hle)]
      obtain ⟨token, hmem, hknows, hcovers⟩ := h i (by
        rwa [List.getElem?_append_left hlt, List.getElem?_append_left (hlength ▸ hlt)])
      rw [List.take_append_of_le_length (Nat.le_of_lt hlt)] at hcovers
      rw [parseAll, List.mem_cons] at hmem
      rcases hmem with rfl | hmem
      · exact ⟨hknows, hcovers⟩
      · -- a later name begins behind the fragment
        have hstart := le_namePlace_start hmem
        have hwithin := Text.byteLength_take_lt hlt
        exact absurd hcovers.1 (by omega)
    · refine ih _ _ hgs fun i hi => ?_
      obtain ⟨token, hmem, hknows, hcovers⟩ := h (f.length + i) (by
        rw [List.getElem?_append_right (Nat.le_add_right _ _),
          List.getElem?_append_right (hlength ▸ Nat.le_add_right _ _), hlength, Nat.add_sub_cancel_left]
        exact hi)
      rw [List.take_length_add_append, Text.byteLength_append, ← Nat.add_assoc] at hcovers
      rw [parseAll, List.mem_cons] at hmem
      rcases hmem with rfl | hmem
      · -- the name of the first token stops with the fragment
        have hstop := namePlace_stop_le start f
        exact absurd hcovers.2 (by omega)
      · exact ⟨token, hmem, hknows, hcovers⟩

end Token

namespace Expander

variable {x : Expander} {a b : Text}

theorem terms_recased (h : Recased x.aliases a b) : x.terms b = x.terms a := by
  have hflatten := Fragment.flatten_split Delimiter.structural
  refine Token.map_toTerm_resolve_parseAll 0 0
    (Fragment.map_small_split Token.not_isAlpha_structural h.letters.symm) fun i hi => ?_
  rw [hflatten, hflatten] at hi
  rw [hflatten, Nat.zero_add]
  exact h.inside i hi

theorem forest_recased (h : Recased x.aliases a b) : x.forest b = x.forest a := by
  rw [forest, forest, x.rules.check_of_small h.letters, terms_recased h]

/-- **The letter case of aliases does not matter**: abbreviations that differ only in the case of ASCII
letters inside names that are aliases have the same markup or fail in the same way. -/
theorem expand_recased (h : Recased x.aliases a b) : x.expand b = x.expand a := by
  rw [expand, expand, forest_recased h]

/-- One alias ends in the small sigma that a capital one becomes at the end of a word. -/
def greek : Expander where
  aliases := .ofDictionary (.ofList [("panς".toList, "on:x".toList), ("btn".toList, "button".toList)])

theorem expand_greek :
    Recased greek.aliases "Btn.Btn*2>paNΣ+Ui:Btn+í#Btn".toList "bTN.Btn*2>PaNΣ+Ui:Btn+í#Btn".toList ∧
    greek.expand "bTN.Btn*2>PaNΣ+Ui:Btn+í#Btn".toList =
      greek.expand "Btn.Btn*2>paNΣ+Ui:Btn+í#Btn".toList := by
  have hrecased : Recased greek.aliases "Btn.Btn*2>paNΣ+Ui:Btn+í#Btn".toList
      "bTN.Btn*2>PaNΣ+Ui:Btn+í#Btn".toList := recased_of_forall_lt (by decide +kernel) (by decide +kernel)
  exact ⟨hrecased, expand_recased hrecased⟩

end Expander
end Shorthand
