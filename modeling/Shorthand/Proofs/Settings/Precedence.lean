import Mathlib
import Shorthand.Proofs.Alias.Layers
import Shorthand.Proofs.Files.Path
import Shorthand.Settings.Storage

/-! # Which alias counts

Aliases come from the stock table, from the settings and from the files of shortcuts that the settings
name. Main statement: where these files can be read, an alias stands for its stock name, else for the name
of its first entry in the settings or in the files, which are gone through in the order of their paths
(`lookup?_expander`). -/

namespace Shorthand.Settings
open Files (Path)
open Unicode (lowercase)

theorem exists_of_map_eq_ok {ε α β : Type} {f : α → β} {r : Except ε α} {y : β}
    (h : r.map f = .ok y) : ∃ x, r = .ok x ∧ y = f x := by
  cases r with
  | error e => cases h
  | ok x =>
    cases h
    exact ⟨x, rfl, rfl⟩

/-- What is computed for each member of a list. -/
theorem forall₂_of_mapM {ε α β : Type} {f : α → Except ε β} : ∀ {xs : List α} {ys : List β},
    xs.mapM f = .ok ys → List.Forall₂ (fun x y => f x = .ok y) xs ys
  | [], ys, h => by
    cases h
    exact .nil
  | x :: xs, ys, h => by
    rw [List.mapM_cons] at h
    cases hx : f x with
    | error e =>
      rw [hx] at h
      cases h
    | ok y =>
      rw [hx] at h
      cases hxs : xs.mapM f with
      | error e =>
        rw [hxs] at h
        cases h
      | ok rest =>
        rw [hxs] at h
        cases h
        exact .cons hx (forall₂_of_mapM hxs)

def Matches (vars : Files.Variables) (tree : Files.Tree) (pattern : Text) (found : List Path) : Prop :=
  Files.Pattern.expand tree (vars.expandPath pattern) = .ok found

def Writes (tree : Files.Tree) (path : Path) (shortcuts : Dictionary) : Prop :=
  ∃ document, tree.read path = .ok document ∧ shortcuts? document = some shortcuts

/-- The files of shortcuts that the settings name, each with its aliases. -/
structure ShortcutFiles (vars : Files.Variables) (tree : Files.Tree) (settings : Settings)
    (files : List (Path × Dictionary)) : Prop where
  /-- The paths are in order, none twice. -/
  sorted : files.Pairwise fun a b => Files.Path.componentKeys a.1 < Files.Path.componentKeys b.1
  /-- Each path is matched by a pattern. -/
  matched : ∀ file ∈ files, ∃ pattern ∈ settings.shortcutFiles, ∃ found,
    Matches vars tree pattern found ∧ file.1 ∈ found
  /-- Each path that a pattern matches is there, in some spelling. -/
  complete : ∀ pattern ∈ settings.shortcutFiles, ∃ found, Matches vars tree pattern found ∧
    ∀ path ∈ found, ∃ file ∈ files, Files.Path.same path file.1 = true
  writes : ∀ file ∈ files, Writes tree file.1 file.2

theorem matches_of_pathsOf {vars : Files.Variables} {tree : Files.Tree} {pattern : Text}
    {found : List Path} (h : pathsOf vars tree pattern = .ok found) : Matches vars tree pattern found := by
  rw [pathsOf] at h
  unfold Matches
  cases hfound : Files.Pattern.expand tree (vars.expandPath pattern) with
  | error e =>
    rw [hfound] at h
    cases h
  | ok paths =>
    rw [hfound] at h
    cases h
    rfl

theorem writes_of_shortcutsIn {tree : Files.Tree} {path : Path} {entries : List (Text × Text)}
    (h : shortcutsIn tree path = .ok entries) :
    ∃ shortcuts, Writes tree path shortcuts ∧ entries = shortcuts.entries := by
  unfold shortcutsIn at h
  split at h
  · cases h
  · rename_i document hread
    split at h
    · cases h
    · rename_i shortcuts hwrites
      cases h
      exact ⟨shortcuts, ⟨document, hread, hwrites⟩, rfl⟩

theorem exists_files {tree : Files.Tree} {paths : List Path} {found : List (List (Text × Text))}
    (h : List.Forall₂ (fun path entries => shortcutsIn tree path = .ok entries) paths found) :
    ∃ files : List (Path × Dictionary), files.map (·.1) = paths ∧
      found.flatten = files.flatMap (·.2.entries) ∧ ∀ file ∈ files, Writes tree file.1 file.2 := by
  induction h with
  | nil => exact ⟨[], rfl, rfl, nofun⟩
  | @cons path entries paths found hpath _ ih =>
    obtain ⟨files, hpaths, hentries, hfiles⟩ := ih
    obtain ⟨shortcuts, hwrites, rfl⟩ := writes_of_shortcutsIn hpath
    refine ⟨(path, shortcuts) :: files, congrArg (path :: ·) hpaths, ?_, ?_⟩
    · rw [List.flatten_cons, List.flatMap_cons, hentries]
    · intro file hfile
      rcases List.mem_cons.1 hfile with rfl | hfile
      · exact hwrites
      · exact hfiles file hfile

/-- The paths of all files of shortcuts are those that the patterns match, in order. -/
theorem exists_sorted_of_shortcutPaths {vars : Files.Variables} {tree : Files.Tree} {settings : Settings}
    {paths : List Path} (h : shortcutPaths vars tree settings = .ok paths) :
    ∃ found, List.Forall₂ (Matches vars tree) settings.shortcutFiles found ∧
      paths = Files.Path.sorted found.flatten := by
  obtain ⟨found, hfound, rfl⟩ := exists_of_map_eq_ok h
  exact ⟨found, (forall₂_of_mapM hfound).imp fun _ _ => matches_of_pathsOf, rfl⟩

theorem Matches.mem_flatten {vars : Files.Variables} {tree : Files.Tree} {patterns : List Text}
    {found : List (List Path)} (h : List.Forall₂ (Matches vars tree) patterns found) :
    (∀ path ∈ found.flatten, ∃ pattern ∈ patterns, ∃ paths, Matches vars tree pattern paths ∧
      path ∈ paths) ∧
    ∀ pattern ∈ patterns, ∃ paths, Matches vars tree pattern paths ∧ ∀ path ∈ paths,
      path ∈ found.flatten := by
  induction h with
  | nil => exact ⟨nofun, nofun⟩
  | @cons pattern paths patterns found hfirst _ ih =>
    obtain ⟨hmatched, hcomplete⟩ := ih
    refine ⟨fun path hpath => ?_, fun p hp => ?_⟩
    · rw [List.flatten_cons, List.mem_append] at hpath
      rcases hpath with hpath | hpath
      · exact ⟨pattern, List.mem_cons_self, paths, hfirst, hpath⟩
      · obtain ⟨p, hp, hrest⟩ := hmatched path hpath
        exact ⟨p, List.mem_cons_of_mem pattern hp, hrest⟩
    · rw [List.flatten_cons]
      rcases List.mem_cons.1 hp with rfl | hp
      · exact ⟨paths, hfirst, fun path => List.mem_append_left _⟩
      · obtain ⟨qs, hqs, hmem⟩ := hcomplete p hp
        exact ⟨qs, hqs, fun path hpath => List.mem_append_right _ (hmem path hpath)⟩

/-- The overrides are the aliases of the settings and then those of the files. -/
theorem exists_shortcutFiles {vars : Files.Variables} {tree : Files.Tree} {settings : Settings}
    {entries : List (Text × Text)} (h : overrides vars tree settings = .ok entries) :
    ∃ files, ShortcutFiles vars tree settings files ∧
      entries = settings.shortcuts.entries ++ files.flatMap (·.2.entries) := by
  unfold overrides at h
  split at h
  · cases h
  · rename_i paths hpaths
    obtain ⟨lists, hlists, rfl⟩ := exists_sorted_of_shortcutPaths hpaths
    obtain ⟨found, hread, rfl⟩ := exists_of_map_eq_ok h
    obtain ⟨files, hfiles, hfound, hwrites⟩ := exists_files (forall₂_of_mapM hread)
    obtain ⟨hmatched, hcomplete⟩ := Matches.mem_flatten hlists
    refine ⟨files, ⟨?_, fun file hfile => ?_, fun pattern hpattern => ?_, hwrites⟩,
      congrArg (settings.shortcuts.entries ++ ·) hfound⟩
    · have hsorted := Files.Path.pairwise_sorted lists.flatten
      rwa [← hfiles, List.pairwise_map] at hsorted
    · refine hmatched file.1 (Files.Path.mem_of_mem_sorted ?_)
      rw [← hfiles]
      exact List.mem_map_of_mem hfile
    · obtain ⟨paths, hpaths, hmem⟩ := hcomplete pattern hpattern
      refine ⟨paths, hpaths, fun path hpath => ?_⟩
      obtain ⟨q, hq, hsame⟩ := Files.Path.exists_same_sorted (hmem path hpath)
      rw [← hfiles] at hq
      obtain ⟨file, hfile, rfl⟩ := List.mem_map.1 hq
      exact ⟨file, hfile, hsame⟩

theorem exists_expander {vars : Files.Variables} {tree : Files.Tree} {settings : Settings}
    {entries : List (Text × Text)} (h : overrides vars tree settings = .ok entries) :
    ∃ x, expander vars tree (some settings) = .ok x ∧ x.aliases = .withOverrides entries := by
  rw [expander, h]
  exact ⟨_, rfl, rfl⟩

/-- **The first entry of an alias counts, stock aliases before all others.** Where the overrides can be read
they are the aliases of the settings in the order of their keys, and then those of the files in the order of
their paths and in each file of their keys. The expander answers every alias with its stock name if it is a
stock alias in some case, else with the name of the first override that has its lower case, if there is one;
and it has as many aliases as there are different keys in lower case. -/
theorem lookup?_expander {vars : Files.Variables} {tree : Files.Tree} {settings : Settings}
    {entries : List (Text × Text)} (h : overrides vars tree settings = .ok entries) :
    ∃ x files, expander vars tree (some settings) = .ok x ∧ ShortcutFiles vars tree settings files ∧
      entries = settings.shortcuts.entries ++ files.flatMap (·.2.entries) ∧
      (∀ key, x.aliases.lookup? key = (Alias.stock.get? (lowercase key)).or (Alias.first? entries key)) ∧
      x.aliases.size = ((Alias.stock.entries ++ entries).map fun e => lowercase e.1).dedup.length := by
  obtain ⟨files, hfiles, hentries⟩ := exists_shortcutFiles h
  obtain ⟨x, hx, haliases⟩ := exists_expander h
  refine ⟨x, files, hx, hfiles, hentries, fun key => ?_, ?_⟩
  · rw [haliases, Alias.lookup?_withOverrides]
  · rw [haliases, Alias.size_withOverrides]

def shelf : Files.Tree where
  root := .directory [("d".toList, .directory
    [("b".toList, .file (Text.bytes "c='b'".toList)), ("a".toList, .file (Text.bytes "C='a'".toList))])]

/-- Settings that name both files, one of them twice, and have an alias in two cases. -/
def crossing : Settings where
  shortcutFiles := ["/d/*".toList, "/d//b".toList]
  shortcuts := .ofList [("tag".toList, "lower".toList), ("TAG".toList, "upper".toList)]

def crossingEntries : List (Text × Text) :=
  [("TAG".toList, "upper".toList), ("tag".toList, "lower".toList), ("C".toList, "a".toList),
    ("c".toList, "b".toList)]

theorem lookup?_crossing : overrides {} shelf crossing = .ok crossingEntries ∧
    ∃ x, expander {} shelf (some crossing) = .ok x ∧
      x.aliases.lookup? "tag".toList = some "upper".toList ∧
      x.aliases.lookup? "C".toList = some "a".toList ∧
      x.aliases.lookup? "Btn".toList = some "Button".toList := by
  have hentries : overrides {} shelf crossing = .ok crossingEntries := by cbv
  obtain ⟨x, files, hx, -, -, hlookup, -⟩ := lookup?_expander hentries
  simp only [Alias.stock, Dictionary.get?_ofList] at hlookup
  refine ⟨hentries, x, hx, ?_, ?_, ?_⟩
  · rw [hlookup]
    decide +kernel
  · rw [hlookup]
    decide +kernel
  · rw [hlookup]
    decide +kernel

end Shorthand.Settings
