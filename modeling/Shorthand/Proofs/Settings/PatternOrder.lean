import Mathlib
import Shorthand.Proofs.Files.Dots
import Shorthand.Proofs.Settings.Precedence

/-! # Patterns in any order

What settings get from their files of shortcuts depends on which paths the patterns match, and neither on the
order of the patterns nor on how often a path is matched. Of a path that is matched in several spellings the
first one is read, and only its length can make a difference. Main statement:
`overrides_congr_shortcutFiles`. -/

namespace Shorthand.Settings
open Files (Path)

/-! ## Lists of computations that may fail -/

section Lists

variable {ε α β : Type} {f : α → Except ε β}

theorem mapM_of_forall₂ {xs : List α} {ys : List β} (h : List.Forall₂ (fun x y => f x = .ok y) xs ys) :
    xs.mapM f = .ok ys := by
  induction h with
  | nil => rfl
  | cons hx _ ih =>
    rw [List.mapM_cons, hx, ih]
    rfl

theorem exists_mapM_ok {xs : List α} (h : ∀ x ∈ xs, ∃ y, f x = .ok y) : ∃ ys, xs.mapM f = .ok ys := by
  induction xs with
  | nil => exact ⟨[], rfl⟩
  | cons x xs ih =>
    obtain ⟨⟨y, hy⟩, hrest⟩ := List.forall_mem_cons.1 h
    obtain ⟨ys, hys⟩ := ih hrest
    exact ⟨y :: ys, by rw [List.mapM_cons, hy, hys]; rfl⟩

/-- The error of a list is that of its first member with one. -/
theorem exists_first_error {xs : List α} {e : ε} (h : xs.mapM f = .error e) :
    ∃ before x after, xs = before ++ x :: after ∧ f x = .error e ∧ ∀ y ∈ before, ∃ v, f y = .ok v := by
  induction xs with
  | nil => cases h
  | cons x xs ih =>
    cases hx : f x with
    | error e' =>
      rw [List.mapM_cons, hx] at h
      cases h
      exact ⟨[], x, xs, rfl, hx, nofun⟩
    | ok v =>
      have hrest : xs.mapM f = .error e := by
        rw [List.mapM_cons, hx] at h
        cases hxs : xs.mapM f with
        | error e' =>
          rw [hxs] at h
          cases h
          rfl
        | ok vs =>
          rw [hxs] at h
          cases h
      obtain ⟨before, y, after, rfl, hy, hbefore⟩ := ih hrest
      exact ⟨x :: before, y, after, rfl, hy, List.forall_mem_cons.2 ⟨⟨v, hx⟩, hbefore⟩⟩

/-- Members can be replaced by others that have the same key and give the same. -/
theorem mapM_ok_congr {κ : Type} {key : α → κ} {xs ys : List α} {vs : List β}
    (hkeys : xs.map key = ys.map key)
    (h : ∀ x ∈ xs, ∀ y ∈ ys, key x = key y → ∀ v, f x = .ok v → f y = .ok v)
    (hxs : xs.mapM f = .ok vs) : ys.mapM f = .ok vs := by
  refine mapM_of_forall₂ ?_
  induction forall₂_of_mapM hxs generalizing ys with
  | nil =>
    rw [List.map_eq_nil_iff.1 hkeys.symm]
    exact .nil
  | @cons x v xs vs hx hrest ih =>
    obtain ⟨y, ys, rfl, hy, hys⟩ := List.map_eq_cons_iff.1 hkeys.symm
    refine .cons (h x List.mem_cons_self y List.mem_cons_self hy.symm v hx) ?_
    refine ih hys.symm (fun a ha b hb => ?_) (mapM_of_forall₂ hrest)
    exact h a (List.mem_cons_of_mem x ha) b (List.mem_cons_of_mem y hb)

end Lists

/-! ## Files in several spellings -/

def Matched (vars : Files.Variables) (tree : Files.Tree) (settings : Settings) (path : Path) : Prop :=
  ∃ pattern ∈ settings.shortcutFiles, ∃ found, Matches vars tree pattern found ∧ path ∈ found

/-- The same kind of problem with one file of shortcuts, which may be spelled in two ways. -/
inductive Problem.Alike : Problem → Problem → Prop
  | unreadable {p q : Path} (h : Path.same p q = true) (cause : Files.Problem) :
    Alike (.unreadableShortcuts p cause) (.unreadableShortcuts q cause)
  | malformed {p q : Path} (h : Path.same p q = true) :
    Alike (.malformedShortcuts p) (.malformedShortcuts q)

theorem shortcutsIn_of_writes {tree : Files.Tree} {path : Path} {shortcuts : Dictionary}
    (h : Writes tree path shortcuts) : shortcutsIn tree path = .ok shortcuts.entries := by
  obtain ⟨document, hread, hshortcuts⟩ := h
  simp only [shortcutsIn, hread, hshortcuts]

/-- A file gives the same aliases, or has the same problem, in any spelling in which it reads alike. -/
theorem shortcutsIn_congr {tree : Files.Tree} {p q : Path} (h : Path.same p q = true)
    (hread : tree.read p = tree.read q) :
    (∃ entries, shortcutsIn tree p = .ok entries ∧ shortcutsIn tree q = .ok entries) ∨
    ∃ problem problem', shortcutsIn tree p = .error problem ∧ shortcutsIn tree q = .error problem' ∧
      problem.Alike problem' := by
  simp only [shortcutsIn, hread]
  cases tree.read q with
  | error cause => exact .inr ⟨_, _, rfl, rfl, .unreadable h cause⟩
  | ok document =>
    dsimp only
    cases shortcuts? document with
    | none => exact .inr ⟨_, _, rfl, rfl, .malformed h⟩
    | some shortcuts => exact .inl ⟨shortcuts.entries, rfl, rfl⟩

/-- Settings with valid patterns. No path is matched both in a spelling that is short enough to be read and
in one that is not. -/
structure Regular (vars : Files.Variables) (tree : Files.Tree) (settings : Settings) : Prop where
  valid : ∀ pattern ∈ settings.shortcutFiles, ∃ found, Matches vars tree pattern found
  lengths : ∀ p q, Matched vars tree settings p → Matched vars tree settings q → Path.same p q = true →
    (p.byteLength ≤ Files.maxPathLength ↔ q.byteLength ≤ Files.maxPathLength)

/-- The first file of all in the order of paths that gives no aliases, and what is the matter with it. -/
structure FirstOffence (vars : Files.Variables) (tree : Files.Tree) (settings : Settings) (path : Path)
    (problem : Problem) : Prop where
  matched : Matched vars tree settings path
  offends : shortcutsIn tree path = .error problem
  /-- The files in front of it can be read. -/
  least : ∀ q, Matched vars tree settings q →
    Path.componentKeys q < Path.componentKeys path → ∃ shortcuts, Writes tree q shortcuts

theorem Matches.unique {vars : Files.Variables} {tree : Files.Tree} {pattern : Text}
    {found found' : List Path} (h : Matches vars tree pattern found)
    (h' : Matches vars tree pattern found') : found = found' := Except.ok.inj (h.symm.trans h')

/-- Settings whose patterns match no path that is too long. -/
theorem Regular.of_short {vars : Files.Variables} {tree : Files.Tree} {settings : Settings}
    (h : ∀ pattern ∈ settings.shortcutFiles, ∃ found, Matches vars tree pattern found ∧
      ∀ p ∈ found, p.byteLength ≤ Files.maxPathLength) : Regular vars tree settings := by
  have hshort : ∀ p, Matched vars tree settings p → p.byteLength ≤ Files.maxPathLength := by
    rintro p ⟨pattern, hpattern, found, hfound, hp⟩
    obtain ⟨found', hfound', hlengths⟩ := h pattern hpattern
    exact hlengths p (hfound.unique hfound' ▸ hp)
  exact ⟨fun pattern hpattern => (h pattern hpattern).imp fun _ => And.left,
    fun p q hp hq _ => iff_of_true (hshort p hp) (hshort q hq)⟩

section Spellings

variable {vars : Files.Variables} {tree : Files.Tree} {settings : Settings}

theorem Matched.settled (hnamed : tree.WellNamed) {path : Path} (h : Matched vars tree settings path) :
    tree.Settled path := by
  obtain ⟨pattern, -, found, hfound, hpath⟩ := h
  exact Files.Pattern.settled_of_expand hnamed hfound path hpath

theorem Regular.read_congr (h : Regular vars tree settings) (hnamed : tree.WellNamed) {p q : Path}
    (hp : Matched vars tree settings p) (hq : Matched vars tree settings q)
    (hsame : Path.same p q = true) : tree.read p = tree.read q :=
  Files.Tree.read_congr hsame (Path.fault?_congr hsame (h.lengths p q hp hq hsame)) (hp.settled hnamed)
    (hq.settled hnamed)

theorem Regular.shortcutsIn_ok (h : Regular vars tree settings) (hnamed : tree.WellNamed) {p q : Path}
    (hp : Matched vars tree settings p) (hq : Matched vars tree settings q)
    (hsame : Path.same p q = true) {entries : List (Text × Text)}
    (hentries : shortcutsIn tree p = .ok entries) : shortcutsIn tree q = .ok entries := by
  rcases shortcutsIn_congr hsame (h.read_congr hnamed hp hq hsame) with
    ⟨entries', hp', hq'⟩ | ⟨problem, -, hp', -, -⟩
  · rw [hentries] at hp'
    rwa [Except.ok.inj hp']
  · rw [hentries] at hp'
    cases hp'

theorem Regular.alike (h : Regular vars tree settings) (hnamed : tree.WellNamed) {p q : Path}
    (hp : Matched vars tree settings p) (hq : Matched vars tree settings q)
    (hsame : Path.same p q = true) {problem problem' : Problem}
    (hproblem : shortcutsIn tree p = .error problem) (hproblem' : shortcutsIn tree q = .error problem') :
    problem.Alike problem' := by
  rcases shortcutsIn_congr hsame (h.read_congr hnamed hp hq hsame) with
    ⟨entries, hp', -⟩ | ⟨e, e', hp', hq', halike⟩
  · rw [hproblem] at hp'
    cases hp'
  · rw [hproblem] at hp'
    rw [hproblem'] at hq'
    rwa [Except.error.inj hp', Except.error.inj hq']

end Spellings

/-! ## The paths of all files -/

section Paths

variable {vars : Files.Variables} {tree : Files.Tree} {settings : Settings}

theorem pathsOf_of_matches {pattern : Text} {found : List Path} (h : Matches vars tree pattern found) :
    pathsOf vars tree pattern = .ok found := by
  rw [pathsOf, show Files.Pattern.expand tree (vars.expandPath pattern) = .ok found from h]
  rfl

/-- With valid patterns the files are those that are matched, in order. -/
theorem exists_shortcutPaths
    (h : ∀ pattern ∈ settings.shortcutFiles, ∃ found, Matches vars tree pattern found) :
    ∃ paths, shortcutPaths vars tree settings = .ok (Path.sorted paths) ∧
      ∀ path, path ∈ paths ↔ Matched vars tree settings path := by
  have hpaths : ∀ pattern ∈ settings.shortcutFiles, ∃ found, pathsOf vars tree pattern = .ok found :=
    fun pattern hpattern => (h pattern hpattern).imp fun _ => pathsOf_of_matches
  obtain ⟨lists, hlists⟩ := exists_mapM_ok hpaths
  obtain ⟨hmatched, hcomplete⟩ := Matches.mem_flatten
    ((forall₂_of_mapM hlists).imp fun _ _ => matches_of_pathsOf)
  refine ⟨lists.flatten, by rw [shortcutPaths, hlists]; rfl, fun path => ⟨hmatched path, ?_⟩⟩
  rintro ⟨pattern, hpattern, found, hfound, hpath⟩
  obtain ⟨found', hfound', hmem⟩ := hcomplete pattern hpattern
  exact hmem path (hfound.unique hfound' ▸ hpath)

theorem overrides_of_shortcutPaths {paths : List Path}
    (h : shortcutPaths vars tree settings = .ok paths) : overrides vars tree settings =
      (paths.mapM (shortcutsIn tree)).map fun found => settings.shortcuts.entries ++ found.flatten := by
  rw [overrides, h]

/-- Where the overrides cannot be read, the first file that offends is to blame. -/
theorem Regular.exists_firstOffence (h : Regular vars tree settings) (hnamed : tree.WellNamed)
    {problem : Problem} (hproblem : overrides vars tree settings = .error problem) :
    ∃ path, FirstOffence vars tree settings path problem := by
  obtain ⟨paths, hpaths, hmem⟩ := exists_shortcutPaths h.valid
  rw [overrides_of_shortcutPaths hpaths] at hproblem
  have herror : (Path.sorted paths).mapM (shortcutsIn tree) = .error problem := by
    cases hread : (Path.sorted paths).mapM (shortcutsIn tree) with
    | error e =>
      rw [hread] at hproblem
      exact congrArg Except.error (Except.error.inj hproblem)
    | ok found =>
      rw [hread] at hproblem
      cases hproblem
  obtain ⟨before, path, after, hsorted, hoffends, hbefore⟩ := exists_first_error herror
  have hmatched : ∀ p ∈ before ++ path :: after, Matched vars tree settings p :=
    fun p hp => (hmem p).1 (Path.mem_of_mem_sorted (hsorted ▸ hp))
  refine ⟨path, hmatched path (by simp), hoffends, fun q hq hlt => ?_⟩
  -- some spelling of `q` is among the paths, and by their order in front of `path`
  obtain ⟨r, hr, hsame⟩ := Path.exists_same_sorted ((hmem q).2 hq)
  have hkeys := Path.same_iff.1 hsame
  rw [hsorted] at hr
  have horder := hsorted ▸ Path.pairwise_sorted paths
  rcases List.mem_append.1 hr with hfront | hback
  · obtain ⟨entries, hentries⟩ := hbefore r hfront
    have hentries := h.shortcutsIn_ok hnamed (hmatched r hr) hq (Path.same_iff.2 hkeys.symm) hentries
    obtain ⟨shortcuts, hwrites, -⟩ := writes_of_shortcutsIn hentries
    exact ⟨shortcuts, hwrites⟩
  · rw [hkeys] at hlt
    rcases List.mem_cons.1 hback with rfl | hback
    · exact absurd hlt (List.lt_irrefl _)
    · have hgt := (List.pairwise_cons.1 (List.pairwise_append.1 horder).2.1).1 r hback
      exact absurd hlt (List.lt_asymm hgt)

end Paths

/-! ## Settings with the same patterns -/

section Same

variable {vars : Files.Variables} {tree : Files.Tree} {s t : Settings}

theorem matched_congr (h : ∀ pattern, pattern ∈ s.shortcutFiles ↔ pattern ∈ t.shortcutFiles)
    {path : Path} : Matched vars tree s path ↔ Matched vars tree t path := by
  simp only [Matched, h]

theorem Regular.congr (h : ∀ pattern, pattern ∈ s.shortcutFiles ↔ pattern ∈ t.shortcutFiles)
    (hs : Regular vars tree s) : Regular vars tree t where
  valid pattern hpattern := hs.valid pattern ((h pattern).2 hpattern)
  lengths p q hp hq := hs.lengths p q ((matched_congr h).2 hp) ((matched_congr h).2 hq)

/-- Overrides that can be read are the same with the patterns in any order. -/
theorem Regular.overrides_ok (hs : Regular vars tree s) (hnamed : tree.WellNamed)
    (hshortcuts : s.shortcuts = t.shortcuts)
    (h : ∀ pattern, pattern ∈ s.shortcutFiles ↔ pattern ∈ t.shortcutFiles)
    {entries : List (Text × Text)} (hentries : overrides vars tree s = .ok entries) :
    overrides vars tree t = .ok entries := by
  obtain ⟨ps, hps, hmemp⟩ := exists_shortcutPaths hs.valid
  obtain ⟨qs, hqs, hmemq⟩ := exists_shortcutPaths (hs.congr h).valid
  have hkeys := Path.componentKeys_sorted_congr
    fun path => (hmemp path).trans ((matched_congr h).trans (hmemq path).symm)
  have hagree : ∀ p ∈ Path.sorted ps, ∀ q ∈ Path.sorted qs, Path.componentKeys p = Path.componentKeys q →
      ∀ v, shortcutsIn tree p = .ok v → shortcutsIn tree q = .ok v := by
    intro p hp q hq hkey v
    have hp := (hmemp p).1 (Path.mem_of_mem_sorted hp)
    have hq := (matched_congr h).2 ((hmemq q).1 (Path.mem_of_mem_sorted hq))
    exact hs.shortcutsIn_ok hnamed hp hq (Path.same_iff.2 hkey)
  rw [overrides_of_shortcutPaths hps] at hentries
  obtain ⟨found, hfound, rfl⟩ := exists_of_map_eq_ok hentries
  rw [overrides_of_shortcutPaths hqs, mapM_ok_congr hkeys hagree hfound, hshortcuts]
  rfl

/-- The first file that offends is one and the same with the patterns in any order. -/
theorem FirstOffence.unique (hs : Regular vars tree s) (hnamed : tree.WellNamed)
    (h : ∀ pattern, pattern ∈ s.shortcutFiles ↔ pattern ∈ t.shortcutFiles) {p q : Path}
    {problem problem' : Problem} (hp : FirstOffence vars tree s p problem)
    (hq : FirstOffence vars tree t q problem') :
    Path.same p q = true ∧ problem.Alike problem' := by
  have hmatched : Matched vars tree s q := (matched_congr h).2 hq.matched
  have hpq : ¬Path.componentKeys p < Path.componentKeys q := by
    intro hlt
    obtain ⟨shortcuts, hwrites⟩ := hq.least p ((matched_congr h).1 hp.matched) hlt
    exact nomatch (shortcutsIn_of_writes hwrites).symm.trans hp.offends
  have hqp : ¬Path.componentKeys q < Path.componentKeys p := by
    intro hlt
    obtain ⟨shortcuts, hwrites⟩ := hp.least q hmatched hlt
    exact nomatch (shortcutsIn_of_writes hwrites).symm.trans hq.offends
  have hsame := Path.same_iff.2 (List.le_antisymm (List.not_lt.1 hqp) (List.not_lt.1 hpq))
  exact ⟨hsame, hs.alike hnamed hp.matched hmatched hsame hp.offends hq.offends⟩

/-- **The order and the repetition of patterns do not matter.** Of settings with the same aliases and the same
valid patterns, in any order and as often as may be, either both have the same overrides, which are the
aliases of the settings and then those of each file that is matched once, in the order of the paths; or the
overrides of neither can be read, both for the same reason and at the same path, the first in order whose
file gives no aliases. -/
theorem overrides_congr_shortcutFiles (hnamed : tree.WellNamed) (hs : Regular vars tree s)
    (hshortcuts : s.shortcuts = t.shortcuts)
    (hpatterns : ∀ pattern, pattern ∈ s.shortcutFiles ↔ pattern ∈ t.shortcutFiles) :
    (∃ entries files, overrides vars tree s = .ok entries ∧ overrides vars tree t = .ok entries ∧
      ShortcutFiles vars tree s files ∧
      entries = s.shortcuts.entries ++ files.flatMap (·.2.entries)) ∨
    ∃ p q problem problem', overrides vars tree s = .error problem ∧
      overrides vars tree t = .error problem' ∧ FirstOffence vars tree s p problem ∧
      FirstOffence vars tree t q problem' ∧ Path.same p q = true ∧ problem.Alike problem' := by
  cases hoverrides : overrides vars tree s with
  | ok entries =>
    obtain ⟨files, hfiles, hentries⟩ := exists_shortcutFiles hoverrides
    have hother := hs.overrides_ok hnamed hshortcuts hpatterns hoverrides
    exact .inl ⟨entries, files, rfl, hother, hfiles, hentries⟩
  | error problem =>
    have ht := hs.congr hpatterns
    cases hother : overrides vars tree t with
    | ok entries =>
      have hback := ht.overrides_ok hnamed hshortcuts.symm (fun pattern => (hpatterns pattern).symm) hother
      rw [hoverrides] at hback
      cases hback
    | error problem' =>
      obtain ⟨p, hp⟩ := hs.exists_firstOffence hnamed hoverrides
      obtain ⟨q, hq⟩ := ht.exists_firstOffence hnamed hother
      exact .inr ⟨p, q, problem, problem', rfl, rfl, hp, hq, hp.unique hs hnamed hpatterns hq⟩

end Same

/-- Settings with two patterns that match one file in two spellings. -/
def overlapping : Settings where
  shortcutFiles := ["/d/*".toList, "/d/./a".toList]
  shortcuts := .ofList [("tag".toList, "lower".toList)]

/-- The same settings with the patterns the other way around, and one of them twice. -/
def turned : Settings where
  shortcutFiles := ["/d/./a".toList, "/d/*".toList, "/d/./a".toList]
  shortcuts := .ofList [("tag".toList, "lower".toList)]

theorem regular_overlapping : Regular {} shelf overlapping := by
  have hstar : Matches {} shelf "/d/*".toList ["/d/b".toList, "/d/a".toList] := by cbv
  have hdot : Matches {} shelf "/d/./a".toList ["/d/./a".toList] := by cbv
  refine .of_short fun pattern hpattern => ?_
  rcases List.mem_pair.1 hpattern with h | h
  · rw [h]
    exact ⟨_, hstar, by decide +kernel⟩
  · rw [h]
    exact ⟨_, hdot, by decide +kernel⟩

/-- Both settings have the aliases of each file once. -/
theorem overrides_overlapping : overrides {} shelf overlapping = overrides {} shelf turned ∧
    overrides {} shelf turned = .ok [("tag".toList, "lower".toList), ("C".toList, "a".toList),
      ("c".toList, "b".toList)] := by
  have hread : overrides {} shelf overlapping = .ok [("tag".toList, "lower".toList),
      ("C".toList, "a".toList), ("c".toList, "b".toList)] := by cbv
  have hpatterns : ∀ pattern, pattern ∈ overlapping.shortcutFiles ↔ pattern ∈ turned.shortcutFiles := by
    intro pattern
    rw [overlapping, turned]
    simp only [List.mem_cons, List.not_mem_nil, or_false]
    tauto
  have hnamed : shelf.WellNamed := ⟨rfl, ⟨rfl, trivial, rfl, trivial, trivial⟩, trivial⟩
  have hshortcuts : overlapping.shortcuts = turned.shortcuts := rfl
  rcases overrides_congr_shortcutFiles hnamed regular_overlapping hshortcuts hpatterns with
    ⟨entries, -, hs, ht, -⟩ | ⟨-, -, problem, -, hs, -⟩
  · exact ⟨hs.trans ht.symm, ht.trans (hs.symm.trans hread)⟩
  · rw [hread] at hs
    cases hs

/-! ## A spelling that is too long -/

/-- A path without variables and tildes stands for itself. -/
theorem expandPath_of_plain (vars : Files.Variables) {path : Path} (h : '$' ∉ path)
    (hhead : path.head? ≠ some '~') : vars.expandPath path = path := by
  have hreplace : vars.replace? path = some path := by
    have hdrop : path.dropWhile (· != '$') = [] := by
      refine List.dropWhile_eq_nil_iff.2 fun c hc => bne_iff_ne.2 ?_
      rintro rfl
      exact h hc
    rw [Files.Variables.replace?, Files.Variables.replaceFrom?, hdrop]
  have hhome : vars.expandHome path = path := by
    unfold Files.Variables.expandHome
    split
    · exact absurd rfl hhead
    · rfl
  rw [Files.Variables.expandPath, hreplace]
  dsimp only
  rw [hhome, ite_self]

section Dotted

variable {tree : Files.Tree} {name : Text}

theorem matches_dottedStar (vars : Files.Variables) (h : Path.IsName name)
    (hplain : ∀ c ∈ name, c ∉ ['$', '?', '*', '['])
    (hdirectory : tree.isDirectory (Path.dotted name 0) = true) {n : Nat}
    (hfault : Path.fault? (Path.dotted name n) = none) :
    Matches vars tree (Path.dottedStar name n)
      ((tree.names (Path.dotted name 0)).map fun entry => Path.dotted name n ++ '/' :: entry) := by
  have hdollar : '$' ∉ Path.dottedStar name n := by
    intro hmem
    rcases List.mem_append.1 hmem with hmem | hmem
    · rcases Path.mem_dotted hmem with hmem | hmem
      · exact absurd hmem (by decide)
      · exact hplain '$' hmem List.mem_cons_self
    · exact absurd hmem (by decide)
  have hhead : (Path.dottedStar name n).head? ≠ some '~' :=
    fun hslash => absurd (Option.some.inj hslash) (by decide)
  rw [Matches, expandPath_of_plain vars hdollar hhead]
  exact Files.Pattern.expand_dottedStar h (fun c hc hwild => hplain c hc (List.mem_cons_of_mem '$' hwild))
    hdirectory hfault

/-- The only file of a directory is read in the spelling that comes first. -/
theorem shortcutPaths_dottedStar (vars : Files.Variables) (h : Path.IsName name)
    (hplain : ∀ c ∈ name, c ∉ ['$', '?', '*', '['])
    (hdirectory : tree.isDirectory (Path.dotted name 0) = true) {entry : Text}
    (hentry : tree.names (Path.dotted name 0) = [entry]) {n m : Nat}
    (hn : Path.fault? (Path.dotted name n) = none) (hm : Path.fault? (Path.dotted name m) = none) :
    shortcutPaths vars tree { shortcutFiles := [Path.dottedStar name n, Path.dottedStar name m] } =
      .ok [Path.dotted name n ++ '/' :: entry] := by
  have hfirst := matches_dottedStar vars h hplain hdirectory hn
  have hsecond := matches_dottedStar vars h hplain hdirectory hm
  rw [hentry, List.map_singleton] at hfirst hsecond
  rw [shortcutPaths, List.mapM_cons, pathsOf_of_matches hfirst, List.mapM_cons, pathsOf_of_matches hsecond]
  exact congrArg Except.ok (Path.sorted_pair (Path.same_dotted name n m entry))

end Dotted

def drawer : Files.Tree where
  root := .directory [("d".toList, .directory [("a".toList, .file (Text.bytes "k='v'".toList))])]

theorem fault?_dotted_drawer {n : Nat} (h : n ≤ 2046) : Path.fault? (Path.dotted ['d'] n) = none := by
  refine Path.fault?_eq_none_iff.2 ⟨fun hnul => ?_, ?_⟩
  · rcases Path.mem_dotted hnul with hmem | hmem
    · exact absurd hmem (by decide)
    · exact absurd hmem (by decide)
  · rw [Path.byteLength_dotted, Files.maxPathLength]
    change 1 + 2 * n + 1 ≤ 4095
    omega

/-- Settings that match the file in a spelling that is too long to be read, and in a short one. -/
def longFirst : Settings where
  shortcutFiles := [Path.dottedStar ['d'] 2046, Path.dottedStar ['d'] 0]

/-- The same patterns the other way around. -/
def longLast : Settings where
  shortcutFiles := [Path.dottedStar ['d'] 0, Path.dottedStar ['d'] 2046]

/-- Of two spellings the first one is read, even where only the second one is short enough. -/
theorem overrides_longFirst : drawer.WellNamed ∧ longFirst.shortcuts = longLast.shortcuts ∧
    (∀ pattern, pattern ∈ longFirst.shortcutFiles ↔ pattern ∈ longLast.shortcutFiles) ∧
    (∀ pattern ∈ longFirst.shortcutFiles, ∃ found, Matches {} drawer pattern found) ∧
    overrides {} drawer longFirst =
      .error (.unreadableShortcuts (Path.dotted ['d'] 2046 ++ '/' :: ['a']) .nameTooLong) ∧
    overrides {} drawer longLast = .ok [(['k'], ['v'])] := by
  have hname : Path.IsName ['d'] := rfl
  have hplain : ∀ c ∈ ['d'], c ∉ ['$', '?', '*', '['] := by simp
  have hdirectory : drawer.isDirectory (Path.dotted ['d'] 0) = true := rfl
  have hentry : drawer.names (Path.dotted ['d'] 0) = [['a']] := rfl
  have hlong := fault?_dotted_drawer (Nat.le_refl 2046)
  have hshort := fault?_dotted_drawer (Nat.zero_le 2046)
  have hread : drawer.read (Path.dotted ['d'] 2046 ++ '/' :: ['a']) = .error .nameTooLong := by
    have hlength : Files.maxPathLength < Text.byteLength (Path.dotted ['d'] 2046 ++ '/' :: ['a']) := by
      rw [Text.byteLength_append, Path.byteLength_dotted]
      change 4095 < 1 + 2 * 2046 + 1 + 2
      omega
    have hnul : '\x00' ∉ Path.dotted ['d'] 2046 ++ '/' :: ['a'] := by
      intro hmem
      rcases List.mem_append.1 hmem with hmem | hmem
      · exact (Path.fault?_eq_none_iff.1 hlong).1 hmem
      · exact absurd hmem (by decide)
    have hfault : Path.fault? (Path.dotted ['d'] 2046 ++ '/' :: ['a']) = some .nameTooLong := by
      rw [Path.fault?, if_neg hnul, if_pos hlength]
    rw [Files.Tree.read, hfault]
  have hentries : shortcutsIn drawer (Path.dotted ['d'] 0 ++ '/' :: ['a']) = .ok [(['k'], ['v'])] := by cbv
  refine ⟨⟨rfl, ⟨rfl, trivial, trivial⟩, trivial⟩, rfl, fun pattern => ?_, fun pattern hpattern => ?_,
    ?_, ?_⟩
  · rw [longFirst, longLast, List.mem_pair, List.mem_pair, or_comm]
  · rcases List.mem_pair.1 hpattern with h | h
    · exact ⟨_, h ▸ matches_dottedStar {} hname hplain hdirectory hlong⟩
    · exact ⟨_, h ▸ matches_dottedStar {} hname hplain hdirectory hshort⟩
  · have hpaths := shortcutPaths_dottedStar {} hname hplain hdirectory hentry hlong hshort
    rw [longFirst, overrides_of_shortcutPaths hpaths, List.mapM_cons, shortcutsIn, hread]
    rfl
  · have hpaths := shortcutPaths_dottedStar {} hname hplain hdirectory hentry hshort hlong
    rw [longLast, overrides_of_shortcutPaths hpaths, List.mapM_cons, hentries]
    rfl

end Shorthand.Settings
