import Shorthand.Files.Pattern
import Shorthand.Proofs.Files.Spelling

/-! # Paths that patterns match

A search enters directories by the names of their entries, by names of the pattern that lead somewhere, and
by dots where it stands in a directory. So every path that it finds is settled: it ends in place only behind
a directory. Main statement: `settled_of_expand`. -/

namespace Shorthand.Files

/-! ## Names -/

/-- A path that is one step down. -/
def Path.IsName (name : Text) : Prop := Path.steps name = [.down name]

namespace Node

mutual

/-- Every node in this one has a name that can stand in a path. -/
def WellNamed : Node → Prop
  | .file _ _ => True
  | .directory entries => WellNamedAll entries

def WellNamedAll : List (Text × Node) → Prop
  | [] => True
  | (name, node) :: rest => Path.IsName name ∧ WellNamed node ∧ WellNamedAll rest

end

theorem WellNamedAll.of_mem {entry : Text × Node} : ∀ {entries : List (Text × Node)},
    WellNamedAll entries → entry ∈ entries → Path.IsName entry.1 ∧ entry.2.WellNamed
  | (_, _) :: _, h, hmem => by
    rcases List.mem_cons.1 hmem with rfl | hmem
    · exact ⟨h.1, h.2.1⟩
    · exact of_mem h.2.2 hmem

theorem WellNamed.entries {node : Node} (h : node.WellNamed) : WellNamedAll node.entries := by
  cases node with
  | file => trivial
  | directory entries => exact h

theorem WellNamed.at? {inner : Node} : ∀ {location : Location} {node : Node}, node.WellNamed →
    node.at? location = some inner → inner.WellNamed
  | [], _, h, hat => by
    cases hat
    exact h
  | name :: location, node, h, hat => by
    obtain ⟨child, hchild, hat⟩ := Option.bind_eq_some_iff.1 hat
    obtain ⟨before, after, hentries, -⟩ := List.lookup_eq_some_iff.1 hchild
    have hmem : (name, child) ∈ node.entries := by
      rw [hentries]
      exact List.mem_append_right before List.mem_cons_self
    exact (h.entries.of_mem hmem).2.at? hat

mutual

/-- The directories in a node are reached by names. -/
theorem WellNamed.innerDirectories : ∀ {node : Node}, node.WellNamed →
    ∀ location ∈ node.innerDirectories, location ≠ [] ∧ ∀ name ∈ location, Path.IsName name
  | .file _ _, _ => nofun
  | .directory _, h => WellNamedAll.directoriesAmong h

theorem WellNamedAll.directoriesAmong : ∀ {entries : List (Text × Node)}, WellNamedAll entries →
    ∀ location ∈ directoriesAmong entries, location ≠ [] ∧ ∀ name ∈ location, Path.IsName name
  | [], _ => nofun
  | (name, node) :: rest, h => by
    obtain ⟨hname, hnode, hrest⟩ := h
    intro location hmem
    rw [Node.directoriesAmong, List.mem_append] at hmem
    rcases hmem with hmem | hmem
    · split at hmem
      · rcases List.mem_cons.1 hmem with rfl | hmem
        · exact ⟨nofun, List.forall_mem_singleton.2 hname⟩
        · obtain ⟨inner, hinner, rfl⟩ := List.mem_map.1 hmem
          obtain ⟨-, hnames⟩ := hnode.innerDirectories inner hinner
          exact ⟨nofun, List.forall_mem_cons.2 ⟨hname, hnames⟩⟩
      · cases hmem
    · exact hrest.directoriesAmong location hmem

end

end Node

/-! ## The last step of a path -/

namespace Path

/-- A path and a name are joined at a slash, which the path may end with. -/
theorem join_cases (path : Path) (name : Text) :
    (path = [] ∧ join path name = name) ∨
    (∃ front, path = front ++ ['/'] ∧ join path name = front ++ '/' :: name) ∨
    join path name = path ++ '/' :: name := by
  rw [join]
  split
  · rename_i hend
    rcases Bool.or_eq_true_iff.1 hend with hnil | hslash
    · obtain rfl := List.isEmpty_iff.1 hnil
      exact .inl ⟨rfl, rfl⟩
    · obtain ⟨front, rfl⟩ := List.getLast?_eq_some_iff.1 (eq_of_beq hslash)
      exact .inr (.inl ⟨front, rfl, List.append_assoc _ _ _⟩)
  · exact .inr (.inr rfl)

theorem steps_append (front rest : Text) : steps (front ++ '/' :: rest) = steps front ++ steps rest := by
  rw [steps, List.splitOn_append_cons_self, List.map_append]
  rfl

theorem exists_steps_join (path : Path) (name : Text) :
    ∃ before, steps (join path name) = before ++ steps name := by
  rcases join_cases path name with ⟨-, h⟩ | ⟨front, -, h⟩ | h
  · exact ⟨[], by rw [h, List.nil_append]⟩
  · exact ⟨steps front, by rw [h, steps_append]⟩
  · exact ⟨steps path, by rw [h, steps_append]⟩

/-- A path ends with the last step of the name that was entered. -/
theorem getLast?_steps_enter {name : Text} {last : Step} (h : (steps name).getLast? = some last)
    (path : Path) : (steps (Pattern.enter path name)).getLast? = some last := by
  rw [Pattern.enter]
  split
  · exact h
  · obtain ⟨before, hsteps⟩ := exists_steps_join path name
    rw [hsteps, List.getLast?_append, h, Option.some_or]

theorem join_ne_nil {name : Text} (h : name ≠ []) (path : Path) : join path name ≠ [] := by
  rcases join_cases path name with ⟨-, hjoin⟩ | ⟨front, -, hjoin⟩ | hjoin
  · rwa [hjoin]
  · rw [hjoin]
    exact List.append_ne_nil_of_right_ne_nil front (List.cons_ne_nil _ _)
  · rw [hjoin]
    exact List.append_ne_nil_of_right_ne_nil path (List.cons_ne_nil _ _)

theorem enter_ne_nil {name : Text} (h : name ≠ []) (path : Path) : Pattern.enter path name ≠ [] := by
  rw [Pattern.enter]
  split
  · exact h
  · exact join_ne_nil h path

end Path

namespace Tree

theorem settled_of_getLast? {t : Tree} {path : Path} {last : Step} (hne : path ≠ [])
    (h : (Path.steps path).getLast? = some last) (hlast : last ≠ .here) : t.Settled path :=
  ⟨hne, fun hhere => absurd (Option.some.inj (h.symm.trans hhere)) hlast⟩

/-- A path that leads somewhere ends in place only behind a directory. -/
theorem settled_of_holds {t : Tree} {path : Path} (h : t.holds path = true) : t.Settled path := by
  rw [holds, at?] at h
  cases hlocate : t.locate? path with
  | none =>
    rw [hlocate] at h
    cases h
  | some location =>
    obtain ⟨hne, -, hwalk⟩ := locate?_eq_some_iff.1 hlocate
    refine ⟨hne, fun hlast _ => isDirectory_iff.2 ⟨location, hlocate, ?_⟩⟩
    obtain ⟨front, hsteps⟩ := List.getLast?_eq_some_iff.1 hlast
    rw [hsteps, List.foldlM_append] at hwalk
    obtain ⟨before, -, hwalk⟩ := Option.bind_eq_some_iff.1 hwalk
    rw [List.foldlM_cons] at hwalk
    obtain ⟨next, hnext, hlocation⟩ := Option.bind_eq_some_iff.1 hwalk
    obtain rfl : next = location := Option.some.inj hlocation
    rw [eq_of_walk?_here hnext]
    exact isDirectoryAt_of_walk? hnext

theorem holds_of_isDirectory {t : Tree} {path : Path} (h : t.isDirectory path = true) :
    t.holds path = true := Option.isSome_of_any h

/-- A single dot behind a directory leads to the directory. -/
theorem locate?_join_dot {t : Tree} {path : Path} {location : Location}
    (h : t.locate? path = some location) (hdirectory : t.isDirectoryAt location = true)
    (hfault : Path.fault? (Path.join path ['.']) = none) :
    t.locate? (Path.join path ['.']) = some location := by
  obtain ⟨hne, -, hwalk⟩ := locate?_eq_some_iff.1 h
  have hdot : Path.steps ['.'] = [.here] := rfl
  refine locate?_eq_some_iff.2 ⟨Path.join_ne_nil (List.cons_ne_nil _ _) path, hfault, ?_⟩
  obtain ⟨c, rest, rfl⟩ := List.exists_cons_of_ne_nil hne
  rcases Path.join_cases (c :: rest) ['.'] with ⟨hnil, -⟩ | ⟨front, hfront, hjoin⟩ | hjoin
  · cases hnil
  · have hstart : t.start (front ++ ['/', '.']) = t.start (front ++ ['/']) := by
      cases front <;> rfl
    rw [hfront, Path.steps_append] at hwalk
    rw [hjoin, Path.steps_append, hdot, hstart]
    exact hwalk
  · rw [hjoin, Path.steps_append, hdot, List.foldlM_append]
    change ((Path.steps (c :: rest)).foldlM t.walk? (t.start (c :: rest)) >>= _) = _
    rw [hwalk]
    exact congrArg (· >>= pure) (walk?_here hdirectory)

theorem isDirectory_join_dot {t : Tree} {path : Path} (h : t.isDirectory path = true)
    (hfault : Path.fault? (Path.join path ['.']) = none) : t.isDirectory (Path.join path ['.']) = true := by
  obtain ⟨location, hlocate, hdirectory⟩ := isDirectory_iff.1 h
  exact isDirectory_iff.2 ⟨location, locate?_join_dot hlocate hdirectory hfault, hdirectory⟩

theorem settled_join_dot {t : Tree} {path : Path} (h : t.isDirectory path = true) :
    t.Settled (Path.join path ['.']) :=
  ⟨Path.join_ne_nil (List.cons_ne_nil _ _) path, fun _ hfault => isDirectory_join_dot h hfault⟩

theorem settled_enter_name {t : Tree} {name : Text} (h : Path.IsName name) (path : Path) :
    t.Settled (Pattern.enter path name) := by
  have hne : name ≠ [] := by
    rintro rfl
    cases h
  have hlast : (Path.steps name).getLast? = some (.down name) := by rw [show _ = _ from h]; rfl
  exact settled_of_getLast? (Path.enter_ne_nil hne path) (Path.getLast?_steps_enter hlast path) nofun

theorem settled_enter_dot {t : Tree} {path : Path} (h : t.isDirectory path = true) :
    t.Settled (Pattern.enter path ['.']) := by
  rw [Pattern.enter]
  split
  · rename_i hdot
    rw [← hdot]
    exact settled_of_holds (holds_of_isDirectory h)
  · exact settled_join_dot h

theorem settled_up {t : Tree} (path : Path) : t.Settled (Pattern.enter path ['.', '.']) :=
  settled_of_getLast? (Path.enter_ne_nil (List.cons_ne_nil _ _) path)
    (Path.getLast?_steps_enter (show (Path.steps ['.', '.']).getLast? = some .up from rfl) path) nofun

def WellNamed (t : Tree) : Prop := t.root.WellNamed

theorem WellNamed.at? {t : Tree} (h : t.WellNamed) {path : Path} {node : Node}
    (hat : t.at? path = some node) : node.WellNamed := by
  obtain ⟨location, -, hnode⟩ := Option.bind_eq_some_iff.1 hat
  exact Node.WellNamed.at? h hnode

theorem WellNamed.names {t : Tree} (h : t.WellNamed) {path : Path} {name : Text}
    (hname : name ∈ t.names path) : Path.IsName name := by
  rw [Tree.names] at hname
  cases hat : t.at? path with
  | none =>
    rw [hat] at hname
    cases hname
  | some node =>
    rw [hat] at hname
    obtain ⟨entry, hentry, rfl⟩ := List.mem_map.1 hname
    exact ((h.at? hat).entries.of_mem hentry).1

end Tree

/-! ## Searching -/

namespace Pattern

variable {t : Tree}

theorem settled_of_mem_matching (h : t.WellNamed) {ws : List Wildcard} {path p : Path}
    (hp : p ∈ matching t ws path) : t.Settled p := by
  obtain ⟨name, hname, rfl⟩ := List.mem_map.1 hp
  exact Tree.settled_enter_name (h.names (List.mem_filter.1 hname).1) path

theorem settled_of_mem_dotEntries {ws : List Wildcard} {path p : Path}
    (hdirectory : t.isDirectory path = true) (hp : p ∈ dotEntries ws path) : t.Settled p := by
  rw [dotEntries] at hp
  split at hp
  · obtain ⟨name, hname, rfl⟩ := List.mem_map.1 hp
    have hdots := (List.mem_filter.1 hname).1
    rcases List.mem_cons.1 hdots with rfl | hdots
    · exact Tree.settled_join_dot hdirectory
    · rw [List.mem_singleton.1 hdots]
      obtain ⟨before, hsteps⟩ := Path.exists_steps_join path ['.', '.']
      have hlast : (Path.steps (Path.join path ['.', '.'])).getLast? = some .up := by
        rw [hsteps, List.getLast?_append]
        rfl
      exact Tree.settled_of_getLast? (Path.join_ne_nil (List.cons_ne_nil _ _) path) hlast nofun
  · cases hp

theorem settled_of_mem_directoriesBelow (h : t.WellNamed) {path p : Path}
    (hp : p ∈ directoriesBelow t path) : t.Settled p := by
  rw [directoriesBelow] at hp
  cases hat : t.at? path with
  | none =>
    rw [hat] at hp
    cases hp
  | some node =>
    rw [hat] at hp
    obtain ⟨location, hlocation, rfl⟩ := List.mem_map.1 hp
    obtain ⟨hne, hnames⟩ := (h.at? hat).innerDirectories location hlocation
    obtain ⟨front, last, rfl⟩ := (List.eq_nil_or_concat location).resolve_left hne
    rw [List.concat_eq_append] at hnames ⊢
    rw [List.foldl_append]
    exact Tree.settled_enter_name (hnames last (List.mem_append_right front List.mem_cons_self)) _

/-- What a search does with its first part: it goes on, with fewer parts, from a settled path. -/
theorem exists_settled_of_mem_search (h : t.WellNamed) {ws : List Wildcard}
    {rest : List (List Wildcard)} {path p : Path} (hp : p ∈ search t (ws :: rest) path) :
    ∃ left q, left.length ≤ rest.length ∧ t.Settled q ∧ p ∈ search t left q := by
  rw [search.eq_def] at hp
  simp only at hp
  split at hp
  · cases rest with
    | nil =>
      exact ⟨[], p, Nat.le_refl 0, settled_of_mem_directoriesBelow h hp, List.mem_singleton_self p⟩
    | cons vs rest =>
      obtain ⟨d, -, hp⟩ := List.mem_flatMap.1 hp
      obtain ⟨q, hq, hp⟩ := List.mem_flatMap.1 hp
      exact ⟨rest, q, Nat.le_succ rest.length, settled_of_mem_matching h hq, hp⟩
  · split at hp
    · rename_i name _
      split at hp
      · rename_i hname
        refine ⟨rest, _, Nat.le_refl _, ?_, hp⟩
        rcases hname with ⟨rfl | rfl, hdirectory⟩ | ⟨-, hholds⟩
        · exact Tree.settled_enter_dot hdirectory
        · exact Tree.settled_up path
        · exact Tree.settled_of_holds hholds
      · cases hp
    · split at hp
      · rename_i hdirectory
        obtain ⟨q, hq, hp⟩ := List.mem_flatMap.1 hp
        refine ⟨rest, q, Nat.le_refl _, ?_, hp⟩
        rcases List.mem_append.1 hq with hq | hq
        · exact settled_of_mem_matching h hq
        · exact settled_of_mem_dotEntries hdirectory hq
      · cases hp

/-- Every path that a search finds is settled, if it began with one or still had parts to match. -/
theorem settled_of_mem_search (h : t.WellNamed) {p : Path} : ∀ {parts : List (List Wildcard)}
    {path : Path}, (parts = [] → t.Settled path) → p ∈ search t parts path → t.Settled p
  | [], path, hpath, hp => by
    rw [List.mem_singleton.1 (show p ∈ [path] from hp)]
    exact hpath rfl
  | ws :: rest, _, _, hp => by
    obtain ⟨left, q, hleft, hq, hp⟩ := exists_settled_of_mem_search h hp
    exact settled_of_mem_search h (fun _ => hq) hp
termination_by parts => parts.length
decreasing_by exact Nat.lt_succ_of_le hleft

theorem parts_ne_nil (pattern : Text) : parts pattern ≠ [] := by
  have hfields : ∀ body, (List.splitOn '/' body).reverse ≠ [] := by
    intro body
    obtain ⟨part, rest, hparts⟩ := List.exists_cons_of_ne_nil (List.splitOn_ne_nil '/' body)
    rw [hparts]
    exact mt List.reverse_eq_nil_iff.1 (List.cons_ne_nil part rest)
  rw [parts]
  split
  · exact mt List.reverse_eq_nil_iff.1 (List.cons_ne_nil _ _)
  · exact mt List.reverse_eq_nil_iff.1 (hfields _)

theorem joinDepths_ne_nil : ∀ {parts : List (List Wildcard)}, parts ≠ [] → joinDepths parts ≠ []
  | [], h => absurd rfl h
  | [ws], _ => by
    rw [joinDepths]
    · exact List.cons_ne_nil _ _
    · exact nofun
  | ws :: vs :: rest, _ => by
    rw [joinDepths]
    split
    · exact joinDepths_ne_nil (List.cons_ne_nil vs rest)
    · exact List.cons_ne_nil _ _

theorem mapM_parse_ne_nil {pattern : Text} {read : List (List Wildcard)}
    (h : (parts pattern).mapM parse = .ok read) : read ≠ [] := by
  obtain ⟨part, rest, hparts⟩ := List.exists_cons_of_ne_nil (parts_ne_nil pattern)
  rw [hparts, List.mapM_cons] at h
  cases hpart : parse part with
  | error e =>
    rw [hpart] at h
    cases h
  | ok ws =>
    rw [hpart] at h
    cases hrest : rest.mapM parse with
    | error e =>
      rw [hrest] at h
      cases h
    | ok others =>
      rw [hrest] at h
      cases h
      exact List.cons_ne_nil ws others

/-- **Every path that a pattern matches is settled.** -/
theorem settled_of_expand (h : t.WellNamed) {pattern : Text} {found : List Path}
    (hfound : expand t pattern = .ok found) : ∀ p ∈ found, t.Settled p := by
  rw [expand] at hfound
  cases hparse : parse pattern with
  | error e =>
    rw [hparse] at hfound
    cases hfound
  | ok wildcards =>
    rw [hparse] at hfound
    cases hparts : (parts pattern).mapM parse with
    | error e =>
      rw [hparts] at hfound
      cases hfound
    | ok read =>
      rw [hparts] at hfound
      have hread := joinDepths_ne_nil (mapM_parse_ne_nil hparts)
      have hsearch : ∀ p ∈ search t (joinDepths read) (if Path.isAbsolute pattern then ['/'] else ['.']),
          t.Settled p := fun p hp =>
        settled_of_mem_search h (fun hnil => absurd hnil hread) hp
      change Except.ok _ = Except.ok found at hfound
      rw [← Except.ok.inj hfound]
      split
      · exact fun p hp => hsearch p (List.mem_filter.1 hp).1
      · exact hsearch

end Pattern
end Shorthand.Files
