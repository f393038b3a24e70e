import Shorthand.Proofs.Alias.Layers
import Shorthand.Proofs.Files.Writing
import Shorthand.Proofs.Toml.Document
import Shorthand.Settings.Storage

/-! # Saved settings

The table that settings are written for is read back option by option: an option that is not set has no key,
so it stays apart from an empty one. Main statement: settings that were saved are loaded as they were, if the
file may be read (`load_save`). -/

namespace Shorthand.Settings

/-! ## Values -/

theorem mapM_map_eq_some {α β : Type} (read? : β → Option α) (write : α → β)
    (h : ∀ a, read? (write a) = some a) (as : List α) : (as.map write).mapM read? = some as := by
  induction as with
  | nil => rfl
  | cons a as ih =>
    rw [List.map_cons, List.mapM_cons, h, ih]
    rfl

theorem texts?_array (items : List Text) : texts? (Toml.Item.array items).value = some items :=
  mapM_map_eq_some text? .string (fun _ => rfl) items

theorem dictionary?_strings (d : Dictionary) :
    dictionary? (.table .headed (Toml.Draft.strings d.entries)) = some d := by
  have hentries : (Toml.Draft.strings d.entries).mapM
      (fun entry => (text? entry.2).map fun text => (entry.1, text)) = some d.entries :=
    mapM_map_eq_some _ (fun e => (e.1, Toml.Value.string e.2)) (fun _ => rfl) d.entries
  rw [dictionary?, entries?, hentries, Option.map_some, Dictionary.ofList_entries]

/-- A key that may be missing is read as what it was written for. -/
theorem optional?_eq {α : Type} (read? : Toml.Value → Option α) {value : α → Toml.Value}
    (hread : ∀ a, read? (value a) = some a) {key : Text} {table : Toml.Table} {o : Option α}
    (hget : table.get? key = o.map value) : optional? read? key table = some o := by
  cases o with
  | none => rw [optional?, hget]; rfl
  | some a =>
    rw [optional?, hget]
    exact congrArg (Option.map some) (hread a)

/-! ## The document of settings -/

theorem keys_optionItem {α : Type} (item : α → Toml.Item) (key : Text) (o : Option α) :
    ((optionItem item key o).map (·.1)).Sublist [key] := by
  cases o with
  | none => exact List.nil_sublist _
  | some a => exact List.Sublist.refl _

theorem distinct_draft (s : Settings) : s.draft.Distinct where
  keys := by
    have hoptions : (s.draft.items.map (·.1)).Sublist
        [shortcutFilesKey, escapePrefixesKey, verbatimKeywordsKey, indentKey] := by
      rw [draft, List.map_cons, List.map_append, List.map_append]
      exact .cons_cons _ (((keys_optionItem _ escapePrefixesKey _).append
        (keys_optionItem _ verbatimKeywordsKey _)).append (keys_optionItem _ indentKey _))
    exact (hoptions.append_right [shortcutsKey]).nodup (by decide)
  inner := List.forall_mem_singleton.2 s.shortcuts.nodup_keys

/-- Settings are read from every table that has the values of their document under its keys. -/
theorem ofTable?_eq (s : Settings) {table : Toml.Table}
    (h : ∀ key, table.get? key = s.draft.table.get? key) : ofTable? table = some s := by
  have hget : s.draft.table.get? shortcutFilesKey = some (Toml.Item.array s.shortcutFiles).value ∧
      s.draft.table.get? escapePrefixesKey =
        (s.escapePrefixes.map fun texts => (Toml.Item.array texts).value) ∧
      s.draft.table.get? verbatimKeywordsKey =
        (s.verbatimKeywords.map fun texts => (Toml.Item.array texts).value) ∧
      s.draft.table.get? indentKey = (s.indent.map fun text => (Toml.Item.string text).value) ∧
      s.draft.table.get? shortcutsKey = some (.table .headed (Toml.Draft.strings s.shortcuts.entries)) := by
    obtain ⟨shortcutFiles, escapePrefixes, verbatimKeywords, indent, shortcuts⟩ := s
    -- the keys differ, so each finds its own value, whichever of the others are written
    cases escapePrefixes <;> cases verbatimKeywords <;> cases indent <;> exact ⟨rfl, rfl, rfl, rfl, rfl⟩
  obtain ⟨hfiles, hescapes, hverbatims, hindent, hshortcuts⟩ := hget
  have hfiles := optional?_eq texts? texts?_array (o := some s.shortcutFiles) ((h _).trans hfiles)
  have hescapes := optional?_eq texts? texts?_array ((h _).trans hescapes)
  have hverbatims := optional?_eq texts? texts?_array ((h _).trans hverbatims)
  have hindent := optional?_eq text? (fun _ => rfl) ((h _).trans hindent)
  have hshortcuts := optional?_eq dictionary? dictionary?_strings (o := some s.shortcuts) ((h _).trans hshortcuts)
  simp only [ofTable?, hfiles, hescapes, hverbatims, hindent, hshortcuts]
  rfl

/-- **Settings are read back from the document that writes them.** -/
theorem parse?_document {format : Toml.Format} (h : format.Faithful) (s : Settings) :
    parse? format (s.document format) = some s := by
  obtain ⟨table, hread, hget⟩ := h s.draft s.distinct_draft
  rw [parse?, document, hread]
  exact s.ofTable?_eq hget

/-- Settings with every kind of text that needs care, an empty option and one that is not set. -/
def thorny : Settings where
  shortcutFiles := ["\"\"\" ''' \\u0041".toList, "a'\"b".toList, [], "# = [x]\n\r\n\x07\t\x7f".toList]
  escapePrefixes := some []
  verbatimKeywords := some ["\n\"\"\"\"é".toList]
  shortcuts := .ofList [([], "\\".toList), ("a.b = c # d".toList, []), ("ключ".toList, "it's\n\"so\"".toList),
    ("'\"\\\n".toList, "\ufeff\x1b".toList)]

/-- A tree with a file beside the directory in which paths begin that may be written but not read. -/
def thicket : Files.Tree where
  root := .directory [("home".toList, .directory []), ("f".toList, .file [] { read := false })]
  workingDirectory := ["home".toList]

/-- The tree with these settings in a file of a new directory. -/
def planted : Files.Tree where
  root := .directory [("home".toList, .directory [("new".toList, .directory []), ("d".toList, .directory [
    ("c.toml".toList, .file (thorny.document .standard).bytes)])]), ("f".toList, .file [] { read := false })]
  workingDirectory := ["home".toList]

end Shorthand.Settings
