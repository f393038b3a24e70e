import Shorthand.Proofs.Files.Matching

/-! # Dots in patterns

A pattern with dots behind the name of a directory matches the entries of the directory, each in a spelling
that has these dots. So there are spellings of one path of any length. Main statement: `expand_dottedStar`. -/

namespace Shorthand.Files
namespace Path

/-! ## Spellings with dots -/

theorem IsName.splitOn {name : Text} (h : IsName name) : List.splitOn '/' name = [name] := by
  obtain ⟨part, hpart, hstep⟩ := List.map_eq_singleton_iff.1 h
  rw [hpart, eq_of_step_eq_down hstep]

theorem IsName.not_mem_slash {name : Text} (h : IsName name) : '/' ∉ name :=
  Text.not_mem_of_mem_splitOn (h.splitOn ▸ List.mem_singleton_self name)

theorem IsName.not_dots {name : Text} (h : IsName name) : ¬(name = ['.'] ∨ name = ['.', '.']) := by
  rintro (rfl | rfl)
  · cases h
  · cases h

def dots : Nat → Text
  | 0 => []
  | n + 1 => dots n ++ ['/', '.']

/-- The path of a directory with dots behind it. -/
def dotted (name : Text) (n : Nat) : Path := '/' :: (name ++ dots n)

/-- The pattern of all entries of the directory, with dots in front of the star. -/
def dottedStar (name : Text) (n : Nat) : Text := dotted name n ++ ['/', '*']

theorem dotted_zero (name : Text) : dotted name 0 = '/' :: name :=
  congrArg ('/' :: ·) (List.append_nil name)

theorem dotted_succ (name : Text) (n : Nat) : dotted name (n + 1) = dotted name n ++ ['/', '.'] :=
  congrArg ('/' :: ·) (List.append_assoc name (dots n) ['/', '.']).symm

theorem byteLength_dotted (name : Text) (n : Nat) :
    (dotted name n).byteLength = name.byteLength + 2 * n + 1 := by
  induction n with
  | zero =>
    rw [dotted_zero, Text.byteLength_cons]
    exact Nat.add_comm _ _
  | succ n ih =>
    rw [dotted_succ, Text.byteLength_append, ih, show Text.byteLength ['/', '.'] = 2 from rfl]
    omega

/-- Fewer dots do no harm. -/
theorem fault?_dotted_of_add {name : Text} {n m : Nat} (h : fault? (dotted name (m + n)) = none) :
    fault? (dotted name m) = none := by
  induction n with
  | zero => exact h
  | succ n ih =>
    rw [← Nat.add_assoc, dotted_succ] at h
    exact ih (fault?_of_append h)

theorem mem_dotted {name : Text} {n : Nat} {c : Char} (h : c ∈ dotted name n) :
    c ∈ ['/', '.'] ∨ c ∈ name := by
  induction n with
  | zero =>
    rw [dotted_zero] at h
    exact (List.mem_cons.1 h).imp_left fun hslash => List.mem_cons.2 (.inl hslash)
  | succ n ih =>
    rw [dotted_succ] at h
    exact (List.mem_append.1 h).elim ih .inl

theorem splitOn_dots {name : Text} (h : IsName name) (n : Nat) :
    List.splitOn '/' (name ++ dots n) = name :: List.replicate n ['.'] := by
  induction n with
  | zero =>
    rw [dots, List.append_nil]
    exact h.splitOn
  | succ n ih =>
    rw [dots, ← List.append_assoc, List.splitOn_append_cons_self, ih, List.replicate_succ']
    rfl

theorem join_dotted {name : Text} (h : IsName name) (n : Nat) (entry : Text) :
    join (dotted name n) entry = dotted name n ++ '/' :: entry := by
  have hlast : (dotted name n).getLast? ≠ some '/' := by
    cases n with
    | zero =>
      have hne : name ≠ [] := by
        rintro rfl
        cases h
      obtain ⟨c, rest, rfl⟩ := List.exists_cons_of_ne_nil hne
      rw [dotted_zero, List.getLast?_cons_cons]
      exact fun hslash => h.not_mem_slash (List.mem_of_getLast? hslash)
    | succ n =>
      rw [dotted_succ, List.getLast?_append]
      exact fun hslash => absurd (Option.some.inj hslash) (by decide)
  have hend : ((dotted name n).isEmpty || (dotted name n).getLast? == some '/') = false :=
    Bool.or_eq_false_iff.2 ⟨rfl, beq_eq_false_iff_ne.2 hlast⟩
  rw [join, hend]
  rfl

theorem enter_dotted {name : Text} (h : IsName name) (n : Nat) (entry : Text) :
    Pattern.enter (dotted name n) entry = dotted name n ++ '/' :: entry := by
  have hne : dotted name n ≠ ['.'] := fun hdot => absurd (List.cons.inj hdot).1 (by decide)
  rw [Pattern.enter, if_neg hne, join_dotted h]

theorem steps_dotted (name : Text) (n : Nat) :
    steps (dotted name n) = steps ('/' :: name) ++ List.replicate n .here := by
  induction n with
  | zero =>
    rw [dotted_zero]
    exact (List.append_nil _).symm
  | succ n ih =>
    rw [dotted_succ, steps_append, ih, List.append_assoc, List.replicate_succ']
    rfl

/-- The dots make no difference to the components. -/
theorem componentKeys_dotted (name : Text) (n : Nat) (rest : Text) :
    componentKeys (dotted name n ++ '/' :: rest) = componentKeys (dotted name 0 ++ '/' :: rest) := by
  have hleft : isAbsolute (dotted name n ++ '/' :: rest) = true := rfl
  have hright : isAbsolute (dotted name 0 ++ '/' :: rest) = true := rfl
  rw [componentKeys, componentKeys, if_pos hleft, if_pos hright, steps_append, steps_append,
    steps_dotted, steps_dotted]
  simp only [List.filterMap_append]
  rw [List.filterMap_replicate_of_none]
  · rfl
  · rfl

theorem same_dotted (name : Text) (n m : Nat) (rest : Text) :
    same (dotted name n ++ '/' :: rest) (dotted name m ++ '/' :: rest) = true := by
  rw [same_iff, componentKeys_dotted name n, componentKeys_dotted name m]

end Path

/-! ## Where the dots lead -/

namespace Tree

variable {t : Tree} {name : Text}

theorem locate?_dotted (h : Path.IsName name) {location : Location}
    (hlocate : t.locate? (Path.dotted name 0) = some location)
    (hdirectory : t.isDirectoryAt location = true) {n : Nat}
    (hfault : Path.fault? (Path.dotted name n) = none) :
    t.locate? (Path.dotted name n) = some location := by
  induction n with
  | zero => exact hlocate
  | succ n ih =>
    have hjoin : Path.dotted name (n + 1) = Path.join (Path.dotted name n) ['.'] := by
      rw [Path.join_dotted h, Path.dotted_succ]
    have hbefore : Path.fault? (Path.dotted name n) = none := by
      rw [Path.dotted_succ] at hfault
      exact Path.fault?_of_append hfault
    rw [hjoin] at hfault ⊢
    exact locate?_join_dot (ih hbefore) hdirectory hfault

/-- The dots lead to the directory as long as there are not too many for a path. -/
theorem at?_dotted (h : Path.IsName name) (hdirectory : t.isDirectory (Path.dotted name 0) = true)
    {n : Nat} (hfault : Path.fault? (Path.dotted name n) = none) :
    t.at? (Path.dotted name n) = t.at? (Path.dotted name 0) := by
  obtain ⟨location, hlocate, hlocation⟩ := isDirectory_iff.1 hdirectory
  rw [at?, at?, locate?_dotted h hlocate hlocation hfault, hlocate]

end Tree

/-! ## What the pattern matches -/

namespace Pattern

theorem read_plain {text : Text} (h : ∀ c ∈ text, c ∉ ['?', '*', '[']) {fuel : Nat}
    (hfuel : text.length ≤ fuel) (position : Nat) (fresh : Bool) :
    read fuel position fresh text = .ok (text.map .char) := by
  induction text generalizing fuel position fresh with
  | nil => cases fuel <;> rfl
  | cons c text ih =>
    obtain ⟨hc, htext⟩ := List.forall_mem_cons.1 h
    simp only [List.mem_cons, List.not_mem_nil, or_false, not_or] at hc
    obtain ⟨fuel, rfl⟩ := Nat.exists_eq_add_of_le' hfuel
    rw [List.length_cons, ← Nat.add_assoc, read, if_neg hc.1, if_neg hc.2.1, if_neg hc.2.2,
      ih htext (Nat.le_add_left _ _)]
    rfl

/-- Text without wildcards is a pattern, and with a star behind it too. -/
theorem exists_read_star {text : Text} (h : ∀ c ∈ text, c ∉ ['?', '*', '[']) (fuel position : Nat)
    (fresh : Bool) : ∃ ws, read fuel position fresh (text ++ ['*']) = .ok ws := by
  induction text generalizing fuel position fresh with
  | nil =>
    cases fuel with
    | zero => exact ⟨[], rfl⟩
    | succ fuel =>
      cases fuel with
      | zero => exact ⟨[.anyRun], rfl⟩
      | succ fuel => exact ⟨[.anyRun], rfl⟩
  | cons c text ih =>
    obtain ⟨hc, htext⟩ := List.forall_mem_cons.1 h
    simp only [List.mem_cons, List.not_mem_nil, or_false, not_or] at hc
    cases fuel with
    | zero => exact ⟨[], rfl⟩
    | succ fuel =>
      obtain ⟨ws, hws⟩ := ih htext fuel (position + 1) (c == '/')
      rw [List.cons_append, read, if_neg hc.1, if_neg hc.2.1, if_neg hc.2.2, hws]
      exact ⟨.char c :: ws, rfl⟩

theorem literal?_map_char (name : Text) : literal? (name.map .char) = some name := by
  induction name with
  | nil => rfl
  | cons c name ih =>
    rw [literal?] at ih ⊢
    rw [List.map_cons, List.mapM_cons, ih]
    rfl

theorem joinDepths_of_not_mem {parts : List (List Wildcard)} (h : [.anyDepth] ∉ parts) :
    joinDepths parts = parts := by
  induction parts with
  | nil => rfl
  | cons ws rest ih =>
    obtain ⟨hws, hrest⟩ := not_or.1 (mt List.mem_cons.2 h)
    cases rest with
    | nil => rfl
    | cons vs rest => rw [joinDepths, if_neg fun hdepth => hws hdepth.1.symm, ih hrest]

/-- A star matches every name. -/
theorem matchesName_anyRun (name : Text) : matchesName [.anyRun] name = true := by
  have hstep : ∀ c, ((begins [.anyRun]).flatMap (after c)).eraseDups = begins [.anyRun] := fun c => rfl
  have hrun : name.foldl (fun left c => (left.flatMap (after c)).eraseDups) (begins [.anyRun]) =
      begins [.anyRun] := by
    induction name with
    | nil => rfl
    | cons c name ih => rw [List.foldl_cons, hstep, ih]
  rw [matchesName, hrun]
  rfl

section Search

variable {t : Tree} {path : Path}

/-- A part without wildcards is entered where it leads somewhere. -/
theorem search_literal {ws : List Wildcard} {name : Text} (hname : literal? ws = some name)
    (hdepth : ws ≠ [.anyDepth])
    (h : ((name = ['.'] ∨ name = ['.', '.']) ∧ t.isDirectory path = true) ∨
      (¬(name = ['.'] ∨ name = ['.', '.']) ∧ t.holds (enter path name) = true))
    (rest : List (List Wildcard)) : search t (ws :: rest) path = search t rest (enter path name) := by
  rw [search.eq_def]
  simp only [if_neg hdepth, hname]
  exact if_pos h

/-- A star at the end matches all entries. -/
theorem search_star (h : t.isDirectory path = true) :
    search t [[.anyRun]] path = (t.names path).map (enter path) := by
  have hmatching : matching t [.anyRun] path = (t.names path).map (enter path) := by
    rw [matching, List.filter_eq_self.2 fun name _ => matchesName_anyRun name]
  rw [search.eq_def]
  refine (if_pos h).trans ?_
  rw [hmatching, show dotEntries [.anyRun] path = [] from rfl, List.append_nil]
  exact List.flatMap_singleton' _

end Search

/-! ## Matching with dots -/

section Dotted

variable {t : Tree} {name : Text}

theorem parts_dottedStar (h : Path.IsName name) (n : Nat) :
    parts (Path.dottedStar name n) = name :: (List.replicate n ['.'] ++ [['*']]) := by
  have hbody : List.splitOn '/' (name ++ Path.dots n ++ '/' :: ['*']) =
      name :: List.replicate n ['.'] ++ [['*']] := by
    rw [List.splitOn_append_cons_self, Path.splitOn_dots h]
    rfl
  have habsolute : Path.isAbsolute (Path.dottedStar name n) = true := rfl
  have hdrop : (Path.dottedStar name n).drop 1 = name ++ Path.dots n ++ '/' :: ['*'] := rfl
  rw [parts, if_pos habsolute, hdrop, hbody, List.reverse_append]
  change (['*'] :: (name :: List.replicate n ['.']).reverse).reverse = _
  rw [List.reverse_cons, List.reverse_reverse, List.cons_append]

theorem mapM_parse_dots (n : Nat) : (List.replicate n ['.'] ++ [['*']]).mapM parse =
    .ok (List.replicate n [.char '.'] ++ [[.anyRun]]) := by
  induction n with
  | zero => rfl
  | succ n ih =>
    rw [List.replicate_succ, List.cons_append, List.mapM_cons, ih]
    rfl

/-- Along the dots of a pattern the search stays in the directory. -/
theorem search_dotted (h : Path.IsName name) (hdirectory : t.isDirectory (Path.dotted name 0) = true)
    {rest : List (List Wildcard)} {n m : Nat} (hfault : Path.fault? (Path.dotted name (m + n)) = none) :
    search t (List.replicate n [.char '.'] ++ rest) (Path.dotted name m) =
      search t rest (Path.dotted name (m + n)) := by
  induction n generalizing m with
  | zero => rfl
  | succ n ih =>
    have hhere : t.isDirectory (Path.dotted name m) = true := by
      rwa [Tree.isDirectory, Tree.at?_dotted h hdirectory (Path.fault?_dotted_of_add hfault)]
    have hsum : m + (n + 1) = m + 1 + n := by omega
    rw [hsum] at hfault ⊢
    rw [List.replicate_succ, List.cons_append,
      search_literal rfl (by decide) (.inl ⟨.inl rfl, hhere⟩), Path.enter_dotted h, ← Path.dotted_succ]
    exact ih hfault

theorem exists_parse_dottedStar (hplain : ∀ c ∈ name, c ∉ ['?', '*', '[']) (n : Nat) :
    ∃ ws, parse (Path.dottedStar name n) = .ok ws := by
  have hfront : ∀ c ∈ Path.dotted name n ++ ['/'], c ∉ ['?', '*', '['] := by
    have hmarks : ∀ c ∈ ['/', '.'], c ∉ ['?', '*', '['] := by simp
    intro c hc
    rcases List.mem_append.1 hc with hc | hc
    · exact (Path.mem_dotted hc).elim (hmarks c) (hplain c)
    · exact hmarks c (List.mem_cons.2 (.inl (List.mem_singleton.1 hc)))
  obtain ⟨ws, hws⟩ := exists_read_star hfront (Path.dottedStar name n).length 0 true
  rw [List.append_assoc] at hws
  exact ⟨ws, hws⟩

theorem not_mem_dots (name : Text) (n : Nat) :
    [.anyDepth] ∉ name.map Wildcard.char :: (List.replicate n [.char '.'] ++ [[.anyRun]]) := by
  intro h
  rcases List.mem_cons.1 h with h | h
  · obtain ⟨c, -, hc⟩ := List.mem_map.1 (h ▸ List.mem_singleton_self Wildcard.anyDepth)
    cases hc
  · rcases List.mem_append.1 h with h | h
    · cases List.eq_of_mem_replicate h
    · cases List.mem_singleton.1 h

/-- **The pattern with dots matches all entries of the directory, spelled with the dots.** -/
theorem expand_dottedStar (h : Path.IsName name) (hplain : ∀ c ∈ name, c ∉ ['?', '*', '['])
    (hdirectory : t.isDirectory (Path.dotted name 0) = true) {n : Nat}
    (hfault : Path.fault? (Path.dotted name n) = none) :
    expand t (Path.dottedStar name n) =
      .ok ((t.names (Path.dotted name 0)).map fun entry => Path.dotted name n ++ '/' :: entry) := by
  obtain ⟨ws, hws⟩ := exists_parse_dottedStar hplain n
  have hparts : (parts (Path.dottedStar name n)).mapM parse =
      .ok (name.map .char :: (List.replicate n [.char '.'] ++ [[.anyRun]])) := by
    rw [parts_dottedStar h, List.mapM_cons, mapM_parse_dots, parse,
      read_plain hplain (Nat.le_refl _)]
    rfl
  have hat := Tree.at?_dotted h hdirectory hfault
  have hhere : t.isDirectory (Path.dotted name n) = true := by rwa [Tree.isDirectory, hat]
  have hsearch : search t (name.map .char :: (List.replicate n [.char '.'] ++ [[.anyRun]])) ['/'] =
      (t.names (Path.dotted name 0)).map fun entry => Path.dotted name n ++ '/' :: entry := by
    have hfirst : enter ['/'] name = Path.dotted name 0 := (Path.dotted_zero name).symm
    have hholds : t.holds (enter ['/'] name) = true := by
      rw [hfirst]
      exact Tree.holds_of_isDirectory hdirectory
    have hdepth : name.map Wildcard.char ≠ [.anyDepth] :=
      fun hname => not_mem_dots name n (List.mem_cons.2 (.inl hname.symm))
    rw [search_literal (literal?_map_char name) hdepth (.inr ⟨h.not_dots, hholds⟩), hfirst,
      search_dotted h hdirectory (by rwa [Nat.zero_add]), Nat.zero_add, search_star hhere, Tree.names, hat]
    exact List.map_congr_left fun entry _ => Path.enter_dotted h n entry
  have hend : ((Path.dottedStar name n).getLast? == some '/') = false := by
    rw [Path.dottedStar, List.getLast?_append]
    rfl
  rw [expand, hws, hparts, hend]
  change Except.ok (search t (joinDepths _) ['/']) = _
  rw [joinDepths_of_not_mem (not_mem_dots name n), hsearch]

end Dotted

end Pattern
end Shorthand.Files
