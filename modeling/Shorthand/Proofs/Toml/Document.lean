import Shorthand.Proofs.Toml.Reading
import Shorthand.Toml.Format

/-! # Documents that are written

A document is a list of lines: first the items, then for each table its header and its entries. Main
statement: the standard format reads back every document that it writes (`faithful_standard`). -/

namespace Shorthand.Toml

def Item.value : Item → Value
  | .string text => .string text
  | .array items => .array false (items.map .string)

namespace Draft

def strings (entries : List (Text × Text)) : List (Text × Value) := entries.map fun e => (e.1, .string e.2)

def table (draft : Draft) : Table :=
  ⟨.headed, draft.items.map (fun e => (e.1, e.2.value)) ++
    draft.tables.map fun t => (t.1, .table .headed (strings t.2))⟩

/-- No key stands twice in one table. -/
structure Distinct (draft : Draft) : Prop where
  keys : (draft.items.map (·.1) ++ draft.tables.map (·.1)).Nodup
  inner : ∀ t ∈ draft.tables, (t.2.map (·.1)).Nodup

end Draft

/-- What is written is read back: every document without a key that stands twice is read as a table with the
same value under each key. -/
def Format.Faithful (format : Format) : Prop :=
  ∀ draft : Draft, draft.Distinct →
    ∃ table, format.read? (format.write draft) = some table ∧ ∀ key, table.get? key = draft.table.get? key

namespace Draft
open Reader (Line WritesLine Progress)

/-! ## The lines of a document -/

/-- The line of an item, and what it says. -/
def itemLine (e : Text × Item) : Text × Line := (Writer.entry e.1 (Writer.item e.2), .entry [e.1] e.2.value)

def tableLines (isFirst : Bool) : List (Text × List (Text × Text)) → List (Text × Line)
  | [] => []
  | (name, entries) :: rest =>
    (if isFirst then [] else [(['\n'], .blank)]) ++
      ((Writer.header name, .header false [name]) :: entries.map (fun e => itemLine (e.1, .string e.2)) ++
        tableLines false rest)

def lines (draft : Draft) : List (Text × Line) :=
  draft.items.map itemLine ++ tableLines draft.items.isEmpty draft.tables

theorem tables_eq (ts : List (Text × List (Text × Text))) : ∀ isFirst : Bool,
    Writer.tables isFirst ts = (tableLines isFirst ts).flatMap (·.1) := by
  induction ts with
  | nil => exact fun _ => rfl
  | cons t ts ih =>
    intro isFirst
    have hentries : t.2.flatMap (fun e => Writer.entry e.1 (Writer.string e.2)) =
        (t.2.map fun e => itemLine (e.1, .string e.2)).flatMap (·.1) := by
      rw [List.flatMap_map]
      rfl
    rw [Writer.tables, tableLines, ih, hentries]
    cases isFirst <;> simp

theorem document_eq (draft : Draft) : Writer.document draft = draft.lines.flatMap (·.1) := by
  rw [Writer.document, lines, List.flatMap_append, ← tables_eq, List.flatMap_map]
  rfl

theorem writesLine_item (e : Text × Item) : WritesLine (itemLine e).1 (itemLine e).2 := by
  obtain ⟨key, item⟩ := e
  cases item with
  | string text => exact Reader.writesLine_entry (Reader.writes_string _ text) key
  | array items => exact Reader.writesLine_entry (Reader.writes_array _ items) key

theorem writesLine_tableLines {ts : List (Text × List (Text × Text))} : ∀ {isFirst : Bool},
    ∀ p ∈ tableLines isFirst ts, WritesLine p.1 p.2 := by
  induction ts with
  | nil => exact fun p hp => absurd hp List.not_mem_nil
  | cons t ts ih =>
    intro isFirst p hp
    rcases List.mem_append.1 hp with hp | hp
    · cases isFirst with
      | true => cases hp
      | false =>
        rw [List.mem_singleton.1 hp]
        exact Reader.writesLine_blank
    rcases List.mem_append.1 hp with hp | hp
    · rcases List.mem_cons.1 hp with rfl | hp
      · exact Reader.writesLine_header t.1
      · obtain ⟨e, -, rfl⟩ := List.mem_map.1 hp
        exact writesLine_item (e.1, .string e.2)
    · exact ih p hp

theorem writesLine_lines (draft : Draft) : ∀ p ∈ draft.lines, WritesLine p.1 p.2 := by
  intro p hp
  rcases List.mem_append.1 hp with hp | hp
  · obtain ⟨e, -, rfl⟩ := List.mem_map.1 hp
    exact writesLine_item e
  · exact writesLine_tableLines p hp

/-! ## The table of a document -/

/-- What the lines of tables with new names add, one table after the other. -/
theorem foldlM_tableLines {ts : List (Text × List (Text × Text))} : ∀ {isFirst : Bool}
    {front : List (Text × Value)} {header : List Text},
    (front.map (·.1) ++ ts.map (·.1)).Nodup → (∀ t ∈ ts, (t.2.map (·.1)).Nodup) →
      (((tableLines isFirst ts).map (·.2)).foldlM Progress.add? ⟨⟨.headed, front⟩, header⟩).map (·.table) =
        some ⟨.headed, front ++ ts.map fun t => (t.1, .table .headed (strings t.2))⟩ := by
  induction ts with
  | nil =>
    intro isFirst front header _ _
    rw [List.map_nil, List.append_nil]
    rfl
  | cons t ts ih =>
    intro isFirst front header hkeys hinner
    obtain ⟨ht, hts⟩ := List.forall_mem_cons.1 hinner
    have hname : ∀ e ∈ front, e.1 ≠ t.1 := fun e he =>
      (List.nodup_append.1 hkeys).2.2 e.1 (List.mem_map_of_mem he) t.1 List.mem_cons_self
    have hstrings : ((strings t.2).map (·.1)).Nodup := by
      rwa [strings, List.map_map]
    have hlines : (tableLines isFirst (t :: ts)).map (·.2) = (if isFirst then [] else [.blank]) ++
        ((.header false [t.1] :: Reader.entryLines (strings t.2)) ++ (tableLines false ts).map (·.2)) := by
      rw [tableLines, Reader.entryLines, strings]
      cases isFirst <;> simp [itemLine, Item.value]
    have hblank : ∀ p : Progress, (if isFirst then [] else [Line.blank]).foldlM Progress.add? p = some p := by
      intro p
      cases isFirst <;> rfl
    have hrest : ((front ++ [(t.1, Value.table .headed (strings t.2))]).map (·.1) ++ ts.map (·.1)).Nodup := by
      rw [List.map_append, List.append_assoc]
      exact hkeys
    rw [hlines, List.foldlM_append, hblank]
    change ((List.foldlM Progress.add? _ (_ ++ _)).map _) = _
    rw [List.foldlM_append, Reader.foldlM_table hname hstrings]
    change (List.foldlM Progress.add? _ _).map _ = _
    rw [ih hrest hts, List.append_assoc]
    rfl

/-- What a document says. -/
theorem document?_document {draft : Draft} (h : draft.Distinct) :
    Reader.document? (Writer.document draft) = some draft.table := by
  have hkeys : (draft.items.map fun e => (e.1, e.2.value)).map (·.1) = draft.items.map (·.1) := List.map_map
  have hfirst : ((draft.items.map itemLine).map (·.2)).foldlM Progress.add? {} =
      some ⟨⟨.headed, draft.items.map fun e => (e.1, e.2.value)⟩, []⟩ := by
    have hlines : (draft.items.map itemLine).map (·.2) =
        Reader.entryLines (draft.items.map fun e => (e.1, e.2.value)) := by
      rw [Reader.entryLines, List.map_map, List.map_map]
      rfl
    rw [hlines]
    exact Reader.foldlM_entryLines (fun es => ⟨.headed, es⟩) [] (fun h value => Table.addEntry_headed h value) []
      (hkeys ▸ (List.nodup_append.1 h.keys).1)
  rw [document_eq, Reader.document?_written draft.writesLine_lines, lines, List.map_append, List.foldlM_append,
    hfirst]
  exact foldlM_tableLines (hkeys.symm ▸ h.keys) h.inner

end Draft

/-- **The standard format reads back what it writes.** -/
theorem Format.faithful_standard : Format.standard.Faithful := fun draft h =>
  ⟨draft.table, Draft.document?_document h, fun _ => rfl⟩

end Shorthand.Toml
