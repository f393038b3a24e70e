import Shorthand.Proofs.Token.Writing

/-! # Terms with their counts

The count of a term is written behind its name or behind its last modifier, or not at all. Main statement:
spelled terms that are put together are split where they were put together (`Spelling.splitsInto_write`).
-/

namespace Shorthand
open Fragment (Piece SplitsInto Trailing)
open Shorthand.Group (isPlain)

inductive CountPlace where
  | behindName
  | atEnd
deriving DecidableEq, Repr

/-- A term as it is written, with the count and its place if there is one. -/
structure Spelling where
  operator : Operator := .start
  name : Text
  counted : Option (CountPlace × Nat) := none
  modifiers : List Modifier := []
deriving DecidableEq, Repr

namespace Spelling

def term (s : Spelling) : Term where
  operator := s.operator
  name := s.name
  count := (s.counted.map (·.2)).getD 1
  modifiers := s.modifiers

def mark (s : Spelling) (place : CountPlace) : Text :=
  match s.counted with
  | some (p, n) => if p = place then Delimiter.multiply :: Text.ofNat n else []
  | none => []

def head (s : Spelling) : Text := s.name ++ s.mark .behindName

def tail (s : Spelling) : Text := s.modifiers.flatMap Modifier.write ++ s.mark .atEnd

def body (s : Spelling) : Text := s.head ++ s.tail

def write (s : Spelling) : Text := s.operator.write ++ s.body

/-- A bare name, at most one group of each kind, and no more copies than can be asked for. -/
structure Writable (s : Spelling) : Prop where
  name_ne_nil : s.name ≠ []
  name : ∀ c ∈ s.name, Delimiter.isBare c = true
  count_le : ∀ counted ∈ s.counted, counted.2 ≤ Token.maxCount
  modifiers : ∀ m ∈ s.modifiers, m.Writable
  apart : s.modifiers.Pairwise Modifier.Apart

instance (s : Spelling) : Decidable s.Writable :=
  decidable_of_iff (s.name ≠ [] ∧ s.name.all Delimiter.isBare = true ∧
      (∀ counted ∈ s.counted, counted.2 ≤ Token.maxCount) ∧ (∀ m ∈ s.modifiers, m.Writable) ∧
      s.modifiers.Pairwise Modifier.Apart)
    ⟨fun ⟨hne, hname, hcount, hmodifiers, hapart⟩ =>
        ⟨hne, List.all_eq_true.1 hname, hcount, hmodifiers, hapart⟩,
      fun h => ⟨h.name_ne_nil, List.all_eq_true.2 h.name, h.count_le, h.modifiers, h.apart⟩⟩

/-- Spellings that make an abbreviation: the first one without an operator. -/
def WritableAll : List Spelling → Prop
  | [] => True
  | s :: ss => s.operator = .start ∧ (∀ r ∈ ss, r.operator.Joins) ∧ ∀ r ∈ s :: ss, r.Writable

instance : (ss : List Spelling) → Decidable (WritableAll ss)
  | [] => isTrue trivial
  | s :: ss => inferInstanceAs
    (Decidable (s.operator = .start ∧ (∀ r ∈ ss, r.operator.Joins) ∧ ∀ r ∈ s :: ss, r.Writable))

end Spelling

def Term.spelling (t : Term) : Spelling where
  operator := t.operator
  name := t.name
  modifiers := t.modifiers

namespace Term

theorem write_spelling (t : Term) : t.spelling.write = t.write := by
  have hmark : ∀ place, t.spelling.mark place = [] := fun _ => rfl
  rw [Spelling.write, Spelling.body, Spelling.head, Spelling.tail, hmark, hmark, List.append_nil,
    List.append_nil]
  rfl

theorem Writable.term_spelling {t : Term} (h : t.Writable) : t.spelling.term = t := by
  have hcount := h.count
  obtain ⟨operator, name, count, modifiers⟩ := t
  cases hcount
  rfl

theorem Writable.spelling {t : Term} (h : t.Writable) : t.spelling.Writable where
  name_ne_nil := h.name_ne_nil
  name := h.name
  count_le := nofun
  modifiers := h.modifiers
  apart := h.apart

end Term

theorem WritableTerms.writable {ts : List Term} (h : WritableTerms ts) : ∀ t ∈ ts, t.Writable := by
  cases ts with
  | nil => exact nofun
  | cons t ts => exact h.2.2

theorem WritableTerms.spellings {ts : List Term} (h : WritableTerms ts) :
    Spelling.WritableAll (ts.map Term.spelling) := by
  cases ts with
  | nil => trivial
  | cons t ts =>
    obtain ⟨hstart, hj, hw⟩ := h
    refine ⟨hstart, fun r hr => ?_, fun r hr => ?_⟩
    · obtain ⟨u, hu, rfl⟩ := List.mem_map.1 hr
      exact hj u hu
    · obtain ⟨u, hu, rfl⟩ := List.mem_map.1 (List.map_cons ▸ hr)
      exact (hw u hu).spelling

/-! ## Counts -/

theorem isBare_of_isDigit {c : Char} (h : c.isDigit = true) : Delimiter.isBare c = true := by
  have hdelimiters : ∀ d ∈ Delimiter.structural ++ Delimiter.modifiers ++
      [Delimiter.attributesClose, Delimiter.textClose, Delimiter.multiply], (!d.isDigit) = true :=
    List.all_eq_true.1 rfl
  rw [Delimiter.isBare, Bool.not_eq_true', ← Bool.not_eq_true, List.contains_iff_mem]
  intro hmem
  have hdigit := hdelimiters c hmem
  rw [h] at hdigit
  cases hdigit

namespace Spelling

/-- What counts write has no meaning to splitting. -/
theorem isPlain_mark (s : Spelling) (place : CountPlace) : ∀ c ∈ s.mark place,
    isPlain c = true ∧ Delimiter.structural.contains c = false ∧
      Delimiter.modifiers.contains c = false := by
  intro c hc
  unfold mark at hc
  split at hc
  · split at hc
    · rcases List.mem_cons.1 hc with rfl | hc
      · decide
      · have hbare := isBare_of_isDigit (Nat.isDigit_of_mem_toDigits (by decide) (by decide) hc)
        exact ⟨isPlain_of_isBare hbare, structural_of_isBare hbare, modifiers_of_isBare hbare⟩
    · cases hc
  · cases hc

/-! ## Between terms -/

theorem body_ne_nil {s : Spelling} (h : s.Writable) : s.body ≠ [] :=
  List.append_ne_nil_of_left_ne_nil (List.append_ne_nil_of_left_ne_nil h.name_ne_nil _) _

theorem trailing_body {s : Spelling} (h : s.Writable) : Trailing Delimiter.structural s.body := by
  have hend : Trailing Delimiter.structural (s.mark .atEnd) :=
    Fragment.trailing_of_plain (fun c hc => (s.isPlain_mark _ c hc).1)
      fun c hc => (s.isPlain_mark _ c hc).2.1
  have htail := trailing_modifiers hend (fun c hc => (s.isPlain_mark _ c hc).1) h.modifiers h.apart
  refine htail.append (fun c hc => ?_) fun c hc => ?_
  · rcases List.mem_append.1 hc with hc | hc
    · exact isPlain_of_isBare (h.name c hc)
    · exact (s.isPlain_mark _ c hc).1
  · rcases List.mem_append.1 hc with hc | hc
    · exact structural_of_isBare (h.name c hc)
    · exact (s.isPlain_mark _ c hc).2.1

theorem piece_body {s : Spelling} (h : s.Writable) : Piece Delimiter.structural s.body := by
  refine (trailing_body h).piece (body_ne_nil h) fun he => ?_
  have hopens := (trailing_body h).opens
  rw [he] at hopens
  cases hopens

/-- A term in front of nothing or of a term that is joined to it. -/
theorem splitsInto_append {s : Spelling} (h : s.Writable) (hj : s.operator.Joins) {v : Text}
    {pieces : List Text} (hv : SplitsInto Delimiter.structural v pieces)
    (hopens : v = [] ∨ Fragment.opensWith Delimiter.structural v = true) :
    SplitsInto Delimiter.structural (s.write ++ v) (s.write :: pieces) ∧
      Fragment.opensWith Delimiter.structural (s.write ++ v) = true := by
  have hbody := piece_body h
  have hno := (trailing_body h).opens
  unfold write
  cases hs : s.operator with
  | start => rw [hs] at hj; exact hj.elim
  | child => exact ⟨hv.append (hbody.cons rfl hno) hopens, rfl⟩
  | sibling => exact ⟨hv.append (hbody.cons rfl hno) hopens, rfl⟩
  | climb levels =>
    rw [hs] at hj
    obtain ⟨k, rfl⟩ : ∃ k, levels = k + 1 := ⟨levels - 1, (Nat.succ_pred_eq_of_pos hj).symm⟩
    have hlast := hv.append (hbody.cons (c := Delimiter.climb) rfl hno) hopens
    refine ⟨?_, rfl⟩
    simp only [Operator.write, List.replicate_succ', List.append_assoc]
    exact hlast.climbs rfl rfl k

theorem splitsInto_joined : ∀ {ss : List Spelling}, (∀ s ∈ ss, s.Writable) →
    (∀ s ∈ ss, s.operator.Joins) →
    SplitsInto Delimiter.structural (ss.flatMap write) (ss.map write) ∧
      (ss.flatMap write = [] ∨ Fragment.opensWith Delimiter.structural (ss.flatMap write) = true)
  | [], _, _ => ⟨Fragment.splitsInto_nil, .inl rfl⟩
  | s :: ss, hw, hj => by
    obtain ⟨hsplits, hopens⟩ := splitsInto_joined (fun r hr => hw r (List.mem_cons_of_mem s hr))
      fun r hr => hj r (List.mem_cons_of_mem s hr)
    obtain ⟨hsplits, hopens⟩ := splitsInto_append (hw s List.mem_cons_self)
      (hj s List.mem_cons_self) hsplits hopens
    exact ⟨hsplits, .inr hopens⟩

/-- Spelled terms are split where they were put together. -/
theorem splitsInto_write {ss : List Spelling} (h : WritableAll ss) :
    SplitsInto Delimiter.structural (ss.flatMap write) (ss.map write) := by
  cases ss with
  | nil => exact Fragment.splitsInto_nil
  | cons s ss =>
    obtain ⟨hstart, hj, hw⟩ := h
    obtain ⟨hsplits, hopens⟩ := splitsInto_joined (fun r hr => hw r (List.mem_cons_of_mem s hr)) hj
    have hwrite : s.write = s.body := by rw [write, hstart]; rfl
    rw [List.flatMap_cons, List.map_cons, hwrite]
    exact hsplits.append (piece_body (hw s List.mem_cons_self)) hopens

end Spelling

/-! ## Terms without written counts -/

theorem flatMap_write_spelling (ts : List Term) :
    (ts.map Term.spelling).flatMap Spelling.write = ts.flatMap Term.write := by
  rw [List.flatMap_map]
  simp only [Term.write_spelling]

theorem nested_write {ts : List Term} (h : WritableTerms ts) :
    Group.Nested (ts.flatMap Term.write) := by
  rw [← flatMap_write_spelling]
  exact (Spelling.splitsInto_write h.spellings).nested

theorem opens_joined {ts : List Term} (hw : ∀ t ∈ ts, t.Writable) (hj : ∀ t ∈ ts, t.operator.Joins) :
    ts.flatMap Term.write = [] ∨
      Fragment.opensWith Delimiter.structural (ts.flatMap Term.write) = true := by
  rw [← flatMap_write_spelling]
  refine (Spelling.splitsInto_joined (fun s hs => ?_) fun s hs => ?_).2
  · obtain ⟨t, ht, rfl⟩ := List.mem_map.1 hs
    exact (hw t ht).spelling
  · obtain ⟨t, ht, rfl⟩ := List.mem_map.1 hs
    exact hj t ht

end Shorthand
