import Shorthand.Proofs.Element.Characters
import Shorthand.Token

/-! # Characters of tokens

What a token says is written in the characters of its text, and its text is a part of the abbreviation. -/

namespace Shorthand

theorem Group.mem_of_mem_read {opener closer c : Char} {text : Text}
    (h : c ∈ (Group.read opener closer text).1) : c ∈ text := by
  rw [Group.read] at h
  cases hclose : Group.close? opener closer 0 text with
  | none => rwa [hclose] at h
  | some cut =>
    rw [hclose] at h
    rw [Group.append_of_close? hclose]
    exact List.mem_append_left _ h

namespace Token

theorem mem_of_mem_beforeStar {c : Char} {text : Text} (h : c ∈ beforeStar text) : c ∈ text :=
  (List.takeWhile_sublist _).subset h

theorem mem_of_readFragment {f : Text} {m : Modifier} (h : (readFragment f).1 = .modifier m) {c : Char}
    (hc : c ∈ m.content) : c ∈ f := by
  cases f with
  | nil => cases h
  | cons d text =>
    refine List.mem_cons_of_mem d ?_
    simp only [readFragment, readGroup] at h
    repeat' split at h
    all_goals cases h
    · exact Group.mem_of_mem_read hc
    · exact Group.mem_of_mem_read hc
    · exact mem_of_mem_beforeStar hc
    · exact mem_of_mem_beforeStar hc

theorem mem_of_modifier? {f : Text} {m : Modifier} (h : modifier? f = some m) {c : Char}
    (hc : c ∈ m.content) : c ∈ f := by
  rw [modifier?] at h
  split at h
  · rename_i hread
    cases h
    exact mem_of_readFragment hread hc
  · cases h

variable {p : Char → Prop}

/-- A token says nothing but what is in its text. -/
theorem holds_parse (start : Nat) {raw : Text} (h : ∀ c ∈ raw, p c) : (parse start raw).toTerm.Holds p := by
  have hbody : ∀ f ∈ Fragment.split Delimiter.modifiers (raw.dropWhile Delimiter.structural.contains),
      ∀ c ∈ f, p c := by
    intro f hf c hc
    have hmem := List.mem_flatten.2 ⟨f, hf, hc⟩
    rw [Fragment.flatten_split] at hmem
    exact h c ((List.dropWhile_sublist _).subset hmem)
  constructor
  · intro c hc
    have hname := nameOf_prefix
      (Fragment.split Delimiter.modifiers (raw.dropWhile Delimiter.structural.contains))
    obtain ⟨f, hf, hmem⟩ := List.mem_flatten.1 (hname.subset hc)
    exact hbody f hf c hmem
  · intro m hm c hc
    obtain ⟨f, hf, hread⟩ := List.mem_filterMap.1 hm
    exact hbody f hf c (mem_of_modifier? hread hc)

theorem holds_parseAll : ∀ {fs : List Text} (start : Nat), (∀ f ∈ fs, ∀ c ∈ f, p c) →
    ∀ token ∈ parseAll start fs, token.toTerm.Holds p
  | [], _, _, _, htoken => nomatch htoken
  | f :: fs, start, h, token, htoken => by
    obtain ⟨hf, hfs⟩ := List.forall_mem_cons.1 h
    rcases List.mem_cons.1 htoken with rfl | htoken
    · exact holds_parse start hf
    · exact holds_parseAll _ hfs token htoken

/-- The tokens of an abbreviation are written in its characters. -/
theorem holds_tokenize {abbreviation : Text} (h : ∀ c ∈ abbreviation, p c) :
    ∀ token ∈ tokenize abbreviation, token.toTerm.Holds p := by
  refine holds_parseAll 0 fun f hf c hc => h c ?_
  rw [← Fragment.flatten_split Delimiter.structural abbreviation]
  exact List.mem_flatten.2 ⟨f, hf, hc⟩

end Token
end Shorthand
