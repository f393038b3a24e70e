import Shorthand.Alias.Dictionary
import Shorthand.Files.Pattern
import Shorthand.Text.Quoted
import Shorthand.Toml.Format

/-!
Settings: what a user can choose, and what of it is written into a document. An option that is not set is
not written, so an unset list and an empty one stay apart.
-/

namespace Shorthand

/-- What a user can choose. What is not set takes its stock value. -/
structure Settings where
  /-- Patterns for the paths of files with further aliases. -/
  shortcutFiles : List Text := []
  escapePrefixes : Option (List Text) := none
  verbatimKeywords : Option (List Text) := none
  indent : Option Text := none
  /-- Aliases and the names they stand for. -/
  shortcuts : Dictionary := .empty
deriving DecidableEq

namespace Settings

inductive Problem where
  | unreadable (path : Files.Path) (cause : Files.Problem)
  | malformed (path : Files.Path)
  | badPattern (pattern : Text) (cause : Files.PatternError)
  | unreadableShortcuts (path : Files.Path) (cause : Files.Problem)
  | malformedShortcuts (path : Files.Path)
deriving DecidableEq, Repr

/-- What is said about a file that is not the TOML document it should be. -/
def malformedText : Text := "not a well-formed document".toList

def Problem.message : Problem → Text
  | .unreadable path cause =>
    "Failed to read config file at ".toList ++ path ++ [':', ' '] ++ cause.message
  | .malformed path =>
    "Failed to parse config file at ".toList ++ path ++ [':', ' '] ++ malformedText
  | .badPattern pattern cause =>
    "Invalid shortcut file pattern ".toList ++ Text.Quoted.ofText pattern ++ [':', ' '] ++ cause.message
  | .unreadableShortcuts path cause =>
    "Failed to read shortcut file at ".toList ++ path ++ [':', ' '] ++ cause.message
  | .malformedShortcuts path =>
    "Failed to parse shortcut file at ".toList ++ path ++ [':', ' '] ++ malformedText

def shortcutFilesKey : Text := "shortcut_files".toList

def escapePrefixesKey : Text := "escape_prefixes".toList

def verbatimKeywordsKey : Text := "verbatim_keywords".toList

def indentKey : Text := "indent".toList

def shortcutsKey : Text := "shortcuts".toList

def text? : Toml.Value → Option Text
  | .string text => some text
  | _ => none

def texts? : Toml.Value → Option (List Text)
  | .array _ items => items.mapM text?
  | _ => none

def entries? (entries : List (Text × Toml.Value)) : Option Dictionary :=
  (entries.mapM fun entry => (text? entry.2).map fun text => (entry.1, text)).map .ofList

/-- The key under which a date or time stands when it is taken for a table. -/
def dateTimeKey : Text := "$__toml_private_datetime".toList

/-- A value that must be a table of strings. A date or time counts as a table with one entry. -/
def dictionary? : Toml.Value → Option Dictionary
  | .table _ entries => entries? entries
  | .dateTime text => some (.ofList [(dateTimeKey, text)])
  | _ => none

/-- The value of a key that need not be there but must be of the right kind if it is. -/
def optional? {α : Type} (read? : Toml.Value → Option α) (key : Text) (table : Toml.Table) :
    Option (Option α) :=
  match table.get? key with
  | none => some none
  | some value => (read? value).map some

/-- The settings that a table holds. Keys that mean nothing are passed over. -/
def ofTable? (table : Toml.Table) : Option Settings := do
  let shortcutFiles ← optional? texts? shortcutFilesKey table
  let escapePrefixes ← optional? texts? escapePrefixesKey table
  let verbatimKeywords ← optional? texts? verbatimKeywordsKey table
  let indent ← optional? text? indentKey table
  let shortcuts ← optional? dictionary? shortcutsKey table
  return {
    shortcutFiles := shortcutFiles.getD []
    escapePrefixes
    verbatimKeywords
    indent
    shortcuts := shortcuts.getD .empty }

def parse? (format : Toml.Format) (document : Text) : Option Settings :=
  (format.read? document).bind ofTable?

/-- The aliases that a file of shortcuts writes: all its values are strings. -/
def shortcuts? (document : Text) : Option Dictionary :=
  (Toml.Reader.document? document).bind fun table => entries? table.entries

/-- What is written for an option, if it is set. -/
def optionItem {α : Type} (item : α → Toml.Item) (key : Text) (option : Option α) :
    List (Text × Toml.Item) :=
  (option.map fun value => (key, item value)).toList

def draft (s : Settings) : Toml.Draft where
  items :=
    (shortcutFilesKey, .array s.shortcutFiles) ::
      (optionItem .array escapePrefixesKey s.escapePrefixes ++
        optionItem .array verbatimKeywordsKey s.verbatimKeywords ++ optionItem .string indentKey s.indent)
  tables := [(shortcutsKey, s.shortcuts.entries)]

def document (format : Toml.Format) (s : Settings) : Text := format.write s.draft

end Settings
end Shorthand
