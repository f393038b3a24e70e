import Shorthand.Files.Tree
import Shorthand.Proofs.Text

/-! # Files that are written

Directories that are made leave every directory where it is and every file as it is, so the path of a file
that is written leads to the file, and the file is open to what a file in its place was open to before. Main
statement: `locate?_write`. -/

namespace Shorthand.Files

/-! ## Nodes -/

namespace Node

theorem lookup_assign_ne {n name : Text} (h : n ≠ name) (node : Node) (entries : List (Text × Node)) :
    (assign name node entries).lookup n = entries.lookup n := by
  induction entries with
  | nil => simp [assign, List.lookup_cons, beq_eq_false_iff_ne.2 h]
  | cons e rest ih =>
    obtain ⟨m, old⟩ := e
    rw [assign]
    split
    · rename_i hm
      subst m
      simp [List.lookup_cons, beq_eq_false_iff_ne.2 h]
    · rw [List.lookup_cons, List.lookup_cons, ih]

section Put

variable {new : Node} {target location : Location} {entries : List (Text × Node)} {n name : Text}

/-- What is put below a name is looked for below it. -/
theorem at?_put_same : (put new (name :: target) (.directory entries)).at? (name :: location) =
    (put new target ((entries.lookup name).getD (.directory []))).at? location := by
  change ((assign name _ entries).lookup name).bind (at? location) = _
  rw [lookup_assign]
  rfl

theorem at?_put_ne (h : n ≠ name) : (put new (name :: target) (.directory entries)).at? (n :: location) =
    (Node.directory entries).at? (n :: location) := by
  change ((assign name _ entries).lookup n).bind (at? location) = _
  rw [lookup_assign_ne h]
  rfl

theorem at?_cons_of_lookup {child : Option Node} (h : entries.lookup n = child) :
    (Node.directory entries).at? (n :: location) = child.bind (at? location) := h ▸ rfl

end Put

/-- A node that is put into a directory is found there. -/
theorem at?_put (new : Node) (name : Text) {location : Location} : ∀ {node : Node},
    (node.at? location).any isDirectory = true →
      (put new (location ++ [name]) node).at? (location ++ [name]) = some new := by
  induction location with
  | nil =>
    intro node h
    cases node with
    | file content access => cases h
    | directory entries => exact at?_put_same
  | cons n location ih =>
    intro node h
    cases node with
    | file content access => cases h
    | directory entries =>
      rw [List.cons_append, at?_put_same]
      cases hchild : entries.lookup n with
      | none =>
        rw [at?_cons_of_lookup hchild] at h
        cases h
      | some child =>
        rw [at?_cons_of_lookup hchild] at h
        exact ih h

/-- What is put in the place of something else than a directory leaves the directories where they are. -/
theorem isDirectory_put {new : Node} {target : Location} : ∀ {location : Location} {node : Node},
    (node.at? target).any isDirectory = false → (node.at? location).any isDirectory = true →
      ((put new target node).at? location).any isDirectory = true := by
  induction target with
  | nil =>
    intro location node htarget h
    cases node with
    | file content access => cases location <;> cases h
    | directory entries => cases htarget
  | cons name target ih =>
    intro location node htarget h
    cases node with
    | file content access => exact h
    | directory entries =>
      cases location with
      | nil => rfl
      | cons n location =>
        by_cases hn : n = name
        · subst hn
          rw [at?_put_same]
          cases hchild : entries.lookup n with
          | none =>
            rw [at?_cons_of_lookup hchild] at h
            cases h
          | some child =>
            rw [at?_cons_of_lookup hchild] at h htarget
            exact ih htarget h
        · rwa [at?_put_ne hn]

/-- A directory that is made changes no place but those that are directories then. -/
theorem at?_put_directory {target : Location} : ∀ {location : Location} {node : Node},
    (∀ there, node.at? target = some there → there = .directory []) →
      ((put (.directory []) target node).at? location).any isDirectory = false →
        (put (.directory []) target node).at? location = node.at? location := by
  induction target with
  | nil =>
    intro location node hmissing _
    rw [hmissing node rfl]
    rfl
  | cons name target ih =>
    intro location node hmissing h
    cases node with
    | file content access => rfl
    | directory entries =>
      cases location with
      | nil => cases h
      | cons n location =>
        by_cases hn : n = name
        · subst hn
          rw [at?_put_same] at h ⊢
          cases hchild : entries.lookup n with
          | some child =>
            rw [hchild] at h
            rw [at?_cons_of_lookup hchild]
            rw [at?_cons_of_lookup hchild] at hmissing
            exact ih hmissing h
          | none =>
            -- what is below a directory that is made is not there before
            rw [hchild] at h
            have hempty : ∀ there, (Node.directory []).at? target = some there → there = .directory [] := by
              cases target with
              | nil =>
                intro there hthere
                exact (Option.some.inj hthere).symm
              | cons n target =>
                intro there hthere
                cases hthere
            have hsame := ih hempty h
            cases location with
            | nil => cases (congrArg (Option.any isDirectory) hsame).symm.trans h
            | cons n location =>
              rw [at?_cons_of_lookup hchild]
              exact hsame
        · exact at?_put_ne hn

end Node

/-- A path that ends with its name takes its last step by this name or up. -/
theorem Path.exists_steps {path : Path} (h : ending path = .name) :
    ∃ init last, steps path = init ++ [last] ∧ last ≠ .here := by
  have hne : List.splitOn '/' path ≠ [] := by
    obtain ⟨part, parts, hparts⟩ := List.exists_cons_of_ne_nil (List.splitOn_ne_nil '/' path)
    rw [hparts]
    exact nofun
  obtain ⟨init, last, hfields⟩ := List.eq_nil_or_concat (List.splitOn '/' path) |>.resolve_left hne
  rw [List.concat_eq_append] at hfields
  refine ⟨init.map step, step last, by rw [steps, hfields, List.map_append]; rfl, fun hhere => ?_⟩
  have hrun : (List.splitOn '/' path).reverse.takeWhile (step · == .here) ≠ [] := by
    simp [hfields, hhere]
  unfold ending at h
  simp only [if_neg hrun] at h
  split at h <;> cases h

/-! ## Making directories -/

namespace Tree

/-- The second tree has a directory wherever the first has one, and the same working directory. -/
structure Within (t u : Tree) : Prop where
  directory : ∀ {location : Location}, t.isDirectoryAt location = true → u.isDirectoryAt location = true
  workingDirectory : u.workingDirectory = t.workingDirectory

/-- The second tree is the first with more directories. -/
structure Extends (t u : Tree) : Prop extends t.Within u where
  plain : ∀ {location : Location}, u.isDirectoryAt location = false → u.node? location = t.node? location
  newFile : u.newFile = t.newFile

theorem Extends.refl (t : Tree) : t.Extends t := ⟨⟨id, rfl⟩, fun _ => rfl, rfl⟩

theorem Within.trans {t u v : Tree} (htu : t.Within u) (huv : u.Within v) : t.Within v :=
  ⟨fun h => huv.directory (htu.directory h), huv.workingDirectory.trans htu.workingDirectory⟩

theorem Extends.trans {t u v : Tree} (htu : t.Extends u) (huv : u.Extends v) : t.Extends v where
  toWithin := htu.toWithin.trans huv.toWithin
  plain {location} h := by
    have hplain : u.isDirectoryAt location = false := Bool.eq_false_iff.2 fun hu =>
      Bool.eq_false_iff.1 h (huv.directory hu)
    exact (huv.plain h).trans (htu.plain hplain)
  newFile := huv.newFile.trans htu.newFile

theorem within_put {t : Tree} {location : Location} (h : t.isDirectoryAt location = false) (node : Node) :
    t.Within (t.put location node) :=
  ⟨fun hdirectory => Node.isDirectory_put h hdirectory, rfl⟩

theorem extends_put {t : Tree} {location : Location} (h : t.node? location = none) :
    t.Extends (t.put location (.directory [])) where
  toWithin := within_put (by rw [isDirectoryAt, h]; rfl) _
  plain hplain := Node.at?_put_directory
    (fun there hthere => nomatch (show t.node? location = some there from hthere).symm.trans h) hplain
  newFile := rfl

theorem walk?_down {u : Tree} {location : Location} {name : Text} (h : u.isDirectoryAt location = true)
    (hnext : (u.node? (location ++ [name])).isSome = true) :
    u.walk? location (.down name) = some (location ++ [name]) := by
  rw [walk?, if_pos h]
  exact if_pos hnext

theorem isSome_of_isDirectoryAt {u : Tree} {location : Location} (h : u.isDirectoryAt location = true) :
    (u.node? location).isSome = true := by
  rw [isDirectoryAt] at h
  cases hnode : u.node? location with
  | none =>
    rw [hnode] at h
    cases h
  | some node => rfl

/-- A step that was taken along directories can be walked. -/
theorem take_spec {p q : Progress} {isLast : Bool} {step : Step} (h : p.take isLast step = .ok q) :
    p.tree.isDirectoryAt p.location = true ∧ p.tree.Extends q.tree ∧
      ∀ {u : Tree}, q.tree.Within u → u.walk? p.location step = some q.location := by
  unfold Progress.take at h
  by_cases hdirectory : p.tree.isDirectoryAt p.location = true
  · rw [if_pos hdirectory] at h
    refine ⟨hdirectory, ?_⟩
    cases step with
    | here =>
      cases h
      exact ⟨.refl _, fun hu => if_pos (hu.directory hdirectory)⟩
    | up =>
      cases h
      exact ⟨.refl _, fun hu => if_pos (hu.directory hdirectory)⟩
    | down name =>
      simp only at h
      split at h
      · cases h
      split at h
      · -- the directory is there
        rename_i entries hnode
        cases h
        have hnext : p.tree.isDirectoryAt (p.location ++ [name]) = true := by
          rw [isDirectoryAt, hnode]
          rfl
        exact ⟨.refl _, fun hu =>
          walk?_down (hu.directory hdirectory) (isSome_of_isDirectoryAt (hu.directory hnext))⟩
      · cases h
      · -- it is made
        rename_i hnode
        cases h
        have hextends := extends_put hnode
        have hnext : (p.tree.put (p.location ++ [name]) (.directory [])).isDirectoryAt
            (p.location ++ [name]) = true := by
          exact congrArg (Option.any Node.isDirectory) (Node.at?_put (.directory []) name hdirectory)
        exact ⟨hextends, fun hu =>
          walk?_down (hu.directory (hextends.directory hdirectory)) (isSome_of_isDirectoryAt (hu.directory hnext))⟩
  · rw [if_neg hdirectory] at h
    cases h

/-- The steps along which directories were made lead where they end, with any steps in place between
them. -/
theorem takeAll_spec {q : Progress} {steps : List Step} : ∀ {p : Progress},
    p.takeAll (steps.filter (· != .here)) = .ok q → q.tree.isDirectoryAt q.location = true →
      p.tree.Extends q.tree ∧ q.tree.isDirectoryAt p.location = true ∧
        ∀ {u : Tree}, q.tree.Within u → steps.foldlM u.walk? p.location = some q.location := by
  induction steps with
  | nil =>
    intro p h hend
    cases h
    exact ⟨.refl _, hend, fun _ => rfl⟩
  | cons step steps ih =>
    intro p h hend
    by_cases hhere : step = .here
    · subst hhere
      obtain ⟨hextends, hstart, hwalk⟩ := ih h hend
      refine ⟨hextends, hstart, fun {u} hu => ?_⟩
      have hstep : u.walk? p.location .here = some p.location := if_pos (hu.directory hstart)
      rw [List.foldlM_cons, hstep]
      exact hwalk hu
    · rw [List.filter_cons_of_pos (by simpa using hhere), Progress.takeAll] at h
      split at h
      · cases h
      · rename_i next hnext
        obtain ⟨hdirectory, hfirst, hstep⟩ := take_spec hnext
        obtain ⟨hextends, -, hwalk⟩ := ih h hend
        refine ⟨hfirst.trans hextends, (hfirst.trans hextends).directory hdirectory, fun {u} hu => ?_⟩
        rw [List.foldlM_cons, hstep (hextends.toWithin.trans hu)]
        exact hwalk hu

/-- What may be done with the file at a location. A file that is not there is a new one. -/
def accessAt (t : Tree) (location : Location) : Access :=
  match t.node? location with
  | some (.file _ access) => access
  | _ => t.newFile

theorem accessAt_file {t : Tree} {location : Location} {content : List UInt8} {access : Access}
    (h : t.node? location = some (.file content access)) : t.accessAt location = access := by
  rw [accessAt, h]

theorem accessAt_none {t : Tree} {location : Location} (h : t.node? location = none) :
    t.accessAt location = t.newFile := by
  rw [accessAt, h]

theorem Extends.accessAt_eq {t u : Tree} (h : t.Extends u) {location : Location}
    (hplain : u.isDirectoryAt location = false) : u.accessAt location = t.accessAt location := by
  rw [accessAt, accessAt, h.plain hplain, h.newFile]

theorem writeAt_spec {content : List UInt8} {ending : Path.Ending} {directory : Location} {name : Text}
    {t u : Tree} (h : t.writeAt content ending directory name = .ok u) :
    t.isDirectoryAt directory = true ∧ ending = .name ∧ t.isDirectoryAt (directory ++ [name]) = false ∧
      u = t.put (directory ++ [name]) (.file content (t.accessAt (directory ++ [name]))) := by
  unfold writeAt at h
  simp only at h
  split at h
  · cases h
  rename_i hdirectory
  split at h
  · cases h
  split at h
  · cases h
  refine ⟨by simpa using hdirectory, ?_⟩
  cases hnode : t.node? (directory ++ [name]) with
  | none =>
    cases ending with
    | name =>
      rw [hnode] at h
      cases h
      exact ⟨rfl, by rw [isDirectoryAt, hnode]; rfl, by rw [accessAt_none hnode]⟩
    | slash => contradiction
    | dot =>
      rw [hnode] at h
      cases h
  | some node =>
    cases node with
    | directory entries =>
      rw [hnode] at h
      cases ending <;> cases h
    | file old access =>
      cases ending with
      | name =>
        rw [hnode] at h
        simp only at h
        split at h
        · cases h
          exact ⟨rfl, by rw [isDirectoryAt, hnode]; rfl, by rw [accessAt_file hnode]⟩
        · cases h
      | slash => contradiction
      | dot =>
        rw [hnode] at h
        cases h

/-- **A path to which a file was written leads to the file.** What may be done with it is what might be done
with the file that it replaces. -/
theorem locate?_write {content : List UInt8} {path : Path} {t u : Tree} (h : t.write content path = .ok u) :
    ∃ location, u.locate? path = some location ∧
      u.node? location = some (.file content (t.accessAt location)) := by
  unfold write at h
  simp only at h
  split at h
  · cases h
  rename_i hpath
  split at h
  · cases h
  split at h
  · cases h
  rename_i made directory hmade
  split at h
  · cases h
  · rename_i name hfault hlast
    obtain ⟨hdirectory, hending, hfile, rfl⟩ := writeAt_spec h
    obtain ⟨init, last, hsteps, hhere⟩ := Path.exists_steps hending
    have hfilter : (Path.steps path).filter (· != .here) = init.filter (· != .here) ++ [last] := by
      rw [hsteps, List.filter_append, List.filter_cons_of_pos (by simpa using hhere), List.filter_nil]
    rw [hfilter, List.getLast?_concat, Option.some.injEq] at hlast
    rw [hfilter, List.dropLast_concat, makeDirectories] at hmade
    cases htake : Progress.takeAll ⟨t, t.start path, false⟩ (init.filter (· != .here)) with
    | error problem =>
      rw [htake] at hmade
      cases hmade
    | ok q =>
      rw [htake] at hmade
      cases hmade
      obtain ⟨hmakes, -, hwalk⟩ := takeAll_spec htake hdirectory
      rw [hmakes.accessAt_eq hfile]
      generalize hnew : Node.file content (t.accessAt (q.location ++ [name])) = new
      have hputs := within_put hfile new
      have hfound := Node.at?_put new name hdirectory
      have hstart : (q.tree.put (q.location ++ [name]) new).start path = t.start path := by
        rw [start, (hmakes.toWithin.trans hputs).workingDirectory, start]
      have hstep : (q.tree.put (q.location ++ [name]) new).walk? q.location (.down name) =
          some (q.location ++ [name]) :=
        walk?_down (hputs.directory hdirectory) (Option.isSome_of_eq_some hfound)
      have hplain : ¬(List.isEmpty path || (none : Option Problem).isSome) = true := by simpa using hpath
      refine ⟨q.location ++ [name], ?_, hnew ▸ hfound⟩
      rw [locate?, hfault, if_neg hplain, hstart, hsteps, List.foldlM_append, hwalk hputs, hlast]
      exact congrArg (· >>= pure) hstep
  · cases h

/-- Only a path without a fault leads anywhere. -/
theorem fault?_of_at? {t : Tree} {path : Path} {node : Node} (h : t.at? path = some node) :
    Path.fault? path = none := by
  rw [at?, locate?] at h
  split at h
  · cases h
  · rename_i hplain
    cases hfault : Path.fault? path with
    | none => rfl
    | some problem => exact absurd (by rw [hfault, Option.isSome_some, Bool.or_true]) hplain

/-- The text of a file is read from its bytes, if the file may be read. -/
theorem read_of_at? {t : Tree} {path : Path} {text : Text} {access : Access}
    (h : t.at? path = some (.file text.bytes access)) :
    t.read path = if access.read then .ok text else .error .permissionDenied := by
  rw [read, fault?_of_at? h, h]
  simp only [Text.ofBytes?_bytes]

end Tree
end Shorthand.Files
