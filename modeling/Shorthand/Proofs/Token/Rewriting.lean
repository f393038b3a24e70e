import Shorthand.Proofs.Token.Offsets
import Shorthand.Token.Rewriting

/-! # Names put over names

A token that is renamed in place keeps the range of its name up to date, so that the next name is put over
the last one and over nothing else. Renaming never fails, and several renamings are one, to the name of the
last. Main statement: what a token of a text is after renamings, and that its text is read as this token
(`renameAll_of_mem_tokenize`). -/

namespace Shorthand

/-- Between two texts, another one takes the place of what stands there. -/
theorem Span.replace?_append (before inside after new : Text) :
    (Span.mk before.byteLength (before.byteLength + inside.byteLength)).replace? new
      (before ++ inside ++ after) = some (before ++ new ++ after) := by
  have hle : (guard (before.byteLength ≤ before.byteLength + inside.byteLength) : Option Unit) =
      some () := if_pos (Nat.le_add_right ..)
  rw [replace?, hle]
  simp only [length, Nat.add_sub_cancel_left, List.append_assoc, Text.splitAtByte?_append,
    Option.bind_eq_bind, Option.bind_some, Option.pure_def]

namespace Token

/-! ## One renaming -/

theorem replace?_nameRange (t : Token) (name : Text) :
    t.nameRange.replace? name t.raw = some (t.rename name).raw :=
  Span.replace?_append t.lead t.name t.trail name

@[simp] theorem rename_name (t : Token) : t.rename t.name = t := rfl

@[simp] theorem rename_rename (t : Token) (first last : Text) :
    (t.rename first).rename last = t.rename last := rfl

theorem rename?_kept (t : Token) (name : Text) : t.kept.rename? name = some (t.rename name).kept := by
  have hreplace : t.kept.nameRange.replace? name t.kept.raw = some (t.rename name).raw :=
    replace?_nameRange t name
  rw [Kept.rename?, hreplace]
  rfl

theorem resolve?_kept (t : Token) (table : Alias.Table) :
    t.kept.resolve? table = some (table.resolve t).kept := by
  have hname : t.kept.name = t.name := rfl
  rw [Kept.resolve?, hname, Alias.Table.resolve, Alias.Table.resolveName]
  split
  · rw [rename_name]
  · cases table.lookup? t.name with
    | none => rfl
    | some name => exact rename?_kept t name

theorem onKept?_kept (t : Token) (r : Renaming) : r.onKept? t.kept = some (r.onToken t).kept := by
  cases r with
  | name value => exact rename?_kept t value
  | table aliases => exact resolve?_kept t aliases

theorem onToken_eq_rename (t : Token) (r : Renaming) : r.onToken t = t.rename (r.onToken t).name := by
  cases r <;> rfl

/-! ## Several renamings -/

theorem renameAll?_kept (t : Token) (rs : List Renaming) :
    t.kept.renameAll? rs = some (t.renameAll rs).kept := by
  induction rs generalizing t with
  | nil => rfl
  | cons r rs ih =>
    rw [Kept.renameAll?, List.foldlM_cons, onKept?_kept, Option.bind_eq_bind, Option.bind_some]
    exact ih (r.onToken t)

/-- Several renamings are one. -/
theorem renameAll_eq_rename (t : Token) (rs : List Renaming) :
    t.renameAll rs = t.rename (t.renameAll rs).name := by
  induction rs generalizing t with
  | nil => rfl
  | cons r rs ih =>
    have hall : t.renameAll (r :: rs) = (r.onToken t).renameAll rs := rfl
    rw [hall]
    calc (r.onToken t).renameAll rs
      _ = (r.onToken t).rename ((r.onToken t).renameAll rs).name := ih (r.onToken t)
      _ = (t.rename (r.onToken t).name).rename ((r.onToken t).renameAll rs).name := by
        rw [← onToken_eq_rename]
      _ = t.rename ((r.onToken t).renameAll rs).name := rename_rename ..

theorem name_renameAll_append (t : Token) (rs : List Renaming) (value : Text) :
    (t.renameAll (rs ++ [.name value])).name = value := by
  rw [renameAll, List.foldl_append]
  rfl

/-- **A renamed token is the token that its text says.** It starts out with the text that its span slices and
the name found there by offsets. Putting names over this name never fails, however long they are and
whichever tables they come from, and keeps the text and the range of the name right: the text is the first
one with the last name in place of the name, the range slices it to that name, and all else is as it was.
Where the token had a name and has a bare one at last, its text alone is read as the token. -/
theorem renameAll_of_mem_tokenize {abbreviation : Text} {t : Token} (ht : t ∈ tokenize abbreviation)
    (rs : List Renaming) :
    t.kept.span.slice? abbreviation = some t.kept.raw ∧
    nameIn? abbreviation t.kept.span = some (t.kept.name, t.kept.nameRange) ∧
    t.kept.renameAll? rs = some (t.renameAll rs).kept ∧
    t.nameRange.replace? (t.renameAll rs).name t.raw = some (t.renameAll rs).raw ∧
    (t.renameAll rs).nameRange.slice? (t.renameAll rs).raw = some (t.renameAll rs).name ∧
    (∀ value, rs.getLast? = some (.name value) → (t.renameAll rs).name = value) ∧
    (t.renameAll rs).operator = t.operator ∧
    (t.renameAll rs).span = t.span ∧
    (t.renameAll rs).count = t.count ∧
    (t.renameAll rs).modifiers = t.modifiers ∧
    (t.name ≠ [] → (t.renameAll rs).name ≠ [] →
      (∀ c ∈ (t.renameAll rs).name, Delimiter.isBare c = true) →
        (parse 0 (t.renameAll rs).raw).toTerm = (t.renameAll rs).toTerm ∧
        (parse 0 (t.renameAll rs).raw).nameRange = (t.renameAll rs).nameRange) := by
  obtain ⟨hslice, hname⟩ := slices_of_mem_tokenize ht
  refine ⟨hslice, hname, renameAll?_kept t rs, ?_, slice?_nameRange _, fun value hlast => ?_, ?_⟩
  · rw [replace?_nameRange, ← renameAll_eq_rename]
  · obtain ⟨before, rfl⟩ := List.getLast?_eq_some_iff.1 hlast
    exact name_renameAll_append t before value
  · rw [renameAll_eq_rename]
    generalize (t.renameAll rs).name = name
    refine ⟨rfl, rfl, rfl, rfl, fun hold hne hbare => ?_⟩
    obtain ⟨u, -, f, -, -, rfl⟩ := @exists_of_mem_parseAll [] _ _ ht []
    rw [@parse_rename u.byteLength 0 f name hold hne hbare]
    exact ⟨rfl, rfl⟩

/-- A token whose name holds an operator and a closer that were glued back to it. -/
def swallowing : Token := parse 2 ">a#b]é*3[c]\x7b$\x7d".toList

/-- An alias, what it stands for, and a name of more bytes than characters. -/
def severalNames : List Renaming := [.name "BTN".toList, .table .stock, .name "größe".toList]

theorem renameAll_swallowing :
    swallowing ∈ tokenize "ul>a#b]é*3[c]\x7b$\x7d".toList ∧ swallowing.name = "a#b]é".toList ∧
    severalNames.getLast? = some (.name "größe".toList) ∧
    (∀ c ∈ "größe".toList, Delimiter.isBare c = true) ∧
    (swallowing.renameAll severalNames).raw = ">größe*3[c]\x7b$\x7d".toList ∧
    (swallowing.kept.renameAll? severalNames).map Kept.nameRange = some ⟨1, 8⟩ ∧
    (parse 0 ">größe*3[c]\x7b$\x7d".toList).toTerm =
      { operator := .child, name := "größe".toList, count := 3,
        modifiers := [.attributes "c".toList, .text "$".toList] } := by
  have hmem : swallowing ∈ tokenize "ul>a#b]é*3[c]\x7b$\x7d".toList := by decide
  have hbare : ∀ c ∈ "größe".toList, Delimiter.isBare c = true := Text.forall_mem_of_all (by decide)
  have hraw : (swallowing.renameAll severalNames).raw = ">größe*3[c]\x7b$\x7d".toList := by decide
  obtain ⟨-, -, hkept, -, -, hlast, -, -, -, -, hread⟩ := renameAll_of_mem_tokenize hmem severalNames
  have hname := hlast "größe".toList rfl
  rw [hname, hraw] at hread
  refine ⟨hmem, by decide, rfl, hbare, hraw, ?_, (hread (by decide) (by decide) hbare).1.trans (by decide)⟩
  rw [hkept]
  decide

end Token
end Shorthand
