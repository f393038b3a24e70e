import Mathlib.Data.List.DropRight
import Shorthand.Alias.Table
import Shorthand.Proofs.Text

/-! # Reading a listing back

The column of aliases is as wide as the longest alias has bytes, and no text has more characters than
bytes, so every alias fits into it and its padding ends where the column ends. A line is cut there and not
at an arrow, which aliases and names can hold themselves. Main statement: the lines of a listing read back
are the table (`read_listing`). -/

namespace Shorthand.Alias

def arrow : Text := " → ".toList

/-- The line of one alias without the line feed that ends it. -/
def row (width : Nat) (entry : Text × Text) : Text := entry.1.rightpad width ' ' ++ arrow ++ entry.2

/-- The alias and the name that a line of a listing is read as, by the width of its column. -/
def readRow (width : Nat) (line : Text) : Text × Text :=
  ((line.take width).rdropWhile (· == ' '), line.drop (width + arrow.length))

/-! ## The column -/

/-- The column is as wide as the longest alias has bytes. -/
theorem max?_byteLength {table : Table} (hne : table.entries.entries ≠ []) :
    (table.entries.entries.map fun e => e.1.byteLength).max? = some table.width := by
  obtain ⟨first, more, hentries⟩ := List.exists_cons_of_ne_nil hne
  rw [Table.width, hentries, List.map_cons, List.max?_cons', List.foldl_cons, Nat.zero_max]

theorem byteLength_le_width {table : Table} {e : Text × Text} (he : e ∈ table.entries.entries) :
    e.1.byteLength ≤ table.width :=
  (List.max?_eq_some_iff.1 (max?_byteLength (List.ne_nil_of_mem he))).2 _ (List.mem_map_of_mem he)

/-- The column is no wider than padding goes as long as no alias is. -/
theorem width_le_iff {table : Table} {n : Nat} :
    table.width ≤ n ↔ ∀ e ∈ table.entries.entries, e.1.byteLength ≤ n := by
  refine ⟨fun hwidth e he => Nat.le_trans (byteLength_le_width he) hwidth, fun h => ?_⟩
  by_cases hne : table.entries.entries = []
  · rw [Table.width, hne]
    exact Nat.zero_le n
  · obtain ⟨e, he, hlongest⟩ := List.mem_map.1 (List.max?_eq_some_iff.1 (max?_byteLength hne)).1
    rw [← hlongest]
    exact h e he

/-- Every alias fits into the column, since a character has at least one byte. -/
theorem length_rightpad_width {table : Table} {e : Text × Text} (he : e ∈ table.entries.entries) :
    (e.1.rightpad table.width ' ').length = table.width := by
  have hbytes := byteLength_le_width he
  have hlength := Text.length_le_byteLength e.1
  rw [List.rightpad, List.length_append, List.length_replicate]
  omega

/-! ## One line -/

theorem rdropWhile_padded {key : Text} (hlast : key.getLast? ≠ some ' ') (n : Nat) :
    (key ++ List.replicate n ' ').rdropWhile (· == ' ') = key := by
  induction n with
  | zero =>
    rw [List.replicate_zero, List.append_nil, List.rdropWhile_eq_self_iff]
    intro hne hspace
    exact hlast (by rw [List.getLast?_eq_some_getLast hne, beq_iff_eq.1 hspace])
  | succ n ih => rw [List.replicate_succ', ← List.append_assoc, List.rdropWhile_concat_pos _ _ _ rfl, ih]

theorem readRow_row {width : Nat} {e : Text × Text} (hwidth : (e.1.rightpad width ' ').length = width)
    (hlast : e.1.getLast? ≠ some ' ') : readRow width (row width e) = e := by
  have htake : (row width e).take width = e.1.rightpad width ' ' := by
    rw [row, List.append_assoc, List.take_left' hwidth]
  have hdrop : (row width e).drop (width + arrow.length) = e.2 :=
    List.drop_left' (by rw [List.length_append, hwidth])
  rw [readRow, htake, hdrop, List.rightpad, rdropWhile_padded hlast]

theorem newline_not_mem_row {e : Text × Text} (hkey : '\n' ∉ e.1) (hname : '\n' ∉ e.2) (width : Nat) :
    '\n' ∉ row width e := by
  intro hm
  rcases List.mem_append.1 hm with hm | hm
  · rcases List.mem_append.1 hm with hm | hm
    · rcases List.mem_append.1 hm with hm | hm
      · exact hkey hm
      · exact absurd (List.eq_of_mem_replicate hm) (by decide)
    · exact absurd hm (by decide)
  · exact hname hm

/-! ## All lines -/

theorem splitOn_written {separator : Char} {pieces : List Text} (h : ∀ piece ∈ pieces, separator ∉ piece) :
    List.splitOn separator (pieces.flatMap (· ++ [separator])) = pieces ++ [[]] := by
  induction pieces with
  | nil => rfl
  | cons piece pieces ih =>
    obtain ⟨hpiece, hpieces⟩ := List.forall_mem_cons.1 h
    rw [List.flatMap_cons, List.append_assoc, List.singleton_append, List.splitOn_append_cons_self_of_not_mem hpiece,
      ih hpieces, List.cons_append]

theorem listing_eq (table : Table) : table.listing =
    (table.entries.entries.map (row table.width)).flatMap (· ++ ['\n']) := by
  rw [Table.listing, List.flatMap_map]
  rfl

theorem listing?_eq_some_iff {table : Table} : table.listing? = some table.listing ↔
    ∀ e ∈ table.entries.entries, e.1.byteLength ≤ Text.maxWidth := by
  rw [Table.listing?, ← width_le_iff]
  split
  · exact iff_of_true rfl ‹_›
  · exact iff_of_false (Option.some_ne_none _).symm ‹_›

/-- **A listing is read back.** It is given as long as no alias is wider than padding goes. Where no alias
ends with a space, and neither aliases nor names hold line feeds, there is one line for each alias, in the
order of the aliases; in each the arrow begins in the column that has the number of bytes of the longest
alias; and what stands before this column, without the spaces at its end, and what stands after the arrow are
the alias and its name. -/
theorem read_listing {table : Table}
    (hkeys : ∀ e ∈ table.entries.entries, '\n' ∉ e.1 ∧ e.1.getLast? ≠ some ' ')
    (hnames : ∀ e ∈ table.entries.entries, '\n' ∉ e.2) :
    (table.listing? = some table.listing ↔
      ∀ e ∈ table.entries.entries, e.1.byteLength ≤ Text.maxWidth) ∧
    (table.entries.entries ≠ [] →
      (table.entries.entries.map fun e => e.1.byteLength).max? = some table.width) ∧
    ∃ lines, table.listing.splitOn '\n' = lines ++ [[]] ∧ lines.length = table.size ∧
      (∀ line ∈ lines, ∃ column name, line = column ++ arrow ++ name ∧ column.length = table.width) ∧
      lines.map (readRow table.width) = table.entries.entries ∧
      (lines.map (readRow table.width)).Pairwise (·.1 < ·.1) := by
  have hread : (table.entries.entries.map (row table.width)).map (readRow table.width) =
      table.entries.entries := by
    rw [List.map_map]
    refine (List.map_congr_left fun e he => ?_).trans (List.map_id _)
    exact readRow_row (length_rightpad_width he) (hkeys e he).2
  have hbreaks : ∀ line ∈ table.entries.entries.map (row table.width), '\n' ∉ line :=
    List.forall_mem_map.2 fun e he => newline_not_mem_row (hkeys e he).1 (hnames e he) table.width
  refine ⟨listing?_eq_some_iff, max?_byteLength, table.entries.entries.map (row table.width), ?_,
    List.length_map _, ?_, hread, ?_⟩
  · rw [listing_eq, splitOn_written hbreaks]
  · exact List.forall_mem_map.2 fun e he => ⟨_, e.2, rfl, length_rightpad_width he⟩
  · rw [hread]
    exact table.entries.sorted

/-- An alias and a name that hold arrows themselves, beside an empty alias and a name with a space at its
end. -/
def arrowed : Table := .ofDictionary <| .ofList
  [("é → ß".toList, "x → y".toList), ("li".toList, "ListBoxItem ".toList), ("".toList, "".toList)]

theorem read_listing_arrowed :
    (∀ e ∈ arrowed.entries.entries, '\n' ∉ e.1 ∧ e.1.getLast? ≠ some ' ') ∧
    (∀ e ∈ arrowed.entries.entries, '\n' ∉ e.2) ∧
    arrowed.listing = "          → \nli        → ListBoxItem \né → ß     → x → y\n".toList ∧
    arrowed.listing? = some arrowed.listing ∧
    ∃ lines, arrowed.listing.splitOn '\n' = lines ++ [[]] ∧ lines.length = 3 ∧
      (∀ line ∈ lines, ∃ column name, line = column ++ arrow ++ name ∧ column.length = 9) ∧
      lines.map (readRow 9) = [([], []), ("li".toList, "ListBoxItem ".toList),
        ("é → ß".toList, "x → y".toList)] := by
  have hentries : arrowed.entries.entries = [([], []), ("li".toList, "ListBoxItem ".toList),
      ("é → ß".toList, "x → y".toList)] := by decide
  have hwidth : arrowed.width = 9 := by decide
  have hkeys : ∀ e ∈ arrowed.entries.entries, '\n' ∉ e.1 ∧ e.1.getLast? ≠ some ' ' := by
    rw [hentries]
    exact List.forall_mem_cons.2 ⟨by decide, List.forall_mem_cons.2 ⟨by decide,
      List.forall_mem_singleton.2 (by decide)⟩⟩
  have hnames : ∀ e ∈ arrowed.entries.entries, '\n' ∉ e.2 := by
    rw [hentries]
    exact List.forall_mem_cons.2 ⟨by decide, List.forall_mem_cons.2 ⟨by decide,
      List.forall_mem_singleton.2 (by decide)⟩⟩
  have hpaddable : ∀ e ∈ arrowed.entries.entries, e.1.byteLength ≤ Text.maxWidth := by
    rw [hentries]
    exact List.forall_mem_cons.2 ⟨by decide, List.forall_mem_cons.2 ⟨by decide,
      List.forall_mem_singleton.2 (by decide)⟩⟩
  obtain ⟨hgiven, -, lines, hlines, hsize, hcolumn, hread, -⟩ := read_listing hkeys hnames
  rw [hwidth] at hcolumn hread
  rw [hentries] at hread
  exact ⟨hkeys, hnames, by decide, hgiven.2 hpaddable, lines, hlines, hsize, hcolumn, hread⟩

end Shorthand.Alias
