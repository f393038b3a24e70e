import Shorthand.Expansion
import Shorthand.Files.Variables
import Shorthand.Settings.Basic

/-!
Settings in files: loading and saving them, the aliases of the files that they name, and the expander
that results.
-/

namespace Shorthand.Settings

def standardPath (vars : Files.Variables) : Files.Path :=
  vars.expandHome "~/.config/xen-coding/config.toml".toList

/-- The settings in a file; none when there is no such file. -/
def load (format : Toml.Format) (tree : Files.Tree) (path : Files.Path) : Except Problem (Option Settings) :=
  if tree.holds path then
    match tree.read path with
    | .error cause => .error (.unreadable path cause)
    | .ok document =>
      match parse? format document with
      | none => .error (.malformed path)
      | some settings => .ok (some settings)
  else .ok none

def save (format : Toml.Format) (settings : Settings) (path : Files.Path) (tree : Files.Tree) :
    Except Files.Problem Files.Tree :=
  tree.write (settings.document format).bytes path

/-- The paths that a pattern matches, its variables replaced. -/
def pathsOf (vars : Files.Variables) (tree : Files.Tree) (pattern : Text) :
    Except Problem (List Files.Path) :=
  (Files.Pattern.expand tree (vars.expandPath pattern)).mapError (.badPattern pattern)

/-- The paths of all files of shortcuts, in order and each once. -/
def shortcutPaths (vars : Files.Variables) (tree : Files.Tree) (settings : Settings) :
    Except Problem (List Files.Path) :=
  (settings.shortcutFiles.mapM (pathsOf vars tree)).map fun found => Files.Path.sorted found.flatten

/-- The aliases of a file of shortcuts, in the order of their keys. -/
def shortcutsIn (tree : Files.Tree) (path : Files.Path) : Except Problem (List (Text × Text)) :=
  match tree.read path with
  | .error cause => .error (.unreadableShortcuts path cause)
  | .ok document =>
    match shortcuts? document with
    | none => .error (.malformedShortcuts path)
    | some shortcuts => .ok shortcuts.entries

/-- All aliases beside the stock ones: those of the settings, then those of the files. -/
def overrides (vars : Files.Variables) (tree : Files.Tree) (settings : Settings) :
    Except Problem (List (Text × Text)) :=
  match shortcutPaths vars tree settings with
  | .error problem => .error problem
  | .ok paths =>
    (paths.mapM (shortcutsIn tree)).map fun found => settings.shortcuts.entries ++ found.flatten

/-- The expander that settings ask for; the stock expander without settings. -/
def expander (vars : Files.Variables) (tree : Files.Tree) :
    Option Settings → Except Problem Expander
  | none => .ok {}
  | some settings =>
    (overrides vars tree settings).map fun entries =>
      let stock : Expander := {}
      { aliases := .withOverrides entries
        rules :=
          { escapePrefixes := settings.escapePrefixes.getD stock.rules.escapePrefixes
            verbatimKeywords := settings.verbatimKeywords.getD stock.rules.verbatimKeywords }
        indent := settings.indent.getD stock.indent }

end Shorthand.Settings
