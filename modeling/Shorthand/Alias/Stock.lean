import Shorthand.Alias.Dictionary

/-! The aliases that every table begins with. -/

namespace Shorthand.Alias

def stockContainers : List (String × String) :=
  [("bd", "Border"), ("dock", "DockPanel"), ("rel", "RelativePanel"), ("scroll", "ScrollViewer"),
   ("stack", "StackPanel"), ("uniform", "UniformPanel"), ("wrap", "WrapPanel"), ("grp", "GroupBox")]

def stockControls : List (String × String) :=
  [("btn", "Button"), ("check", "CheckBox"), ("ci", "ComboBoxItem"), ("combo", "ComboBox"),
   ("cp", "ContentPresenter"), ("date", "DatePicker"), ("li", "ListBoxItem"), ("list", "ListBox"),
   ("mi", "MenuItem"), ("radio", "RadioButton"), ("rect", "Rectangle"), ("rtb", "RichTextBox"),
   ("rtf", "RichTextBox"), ("split", "GridSplitter"), ("tab", "TabItem"), ("tabs", "TabControl"),
   ("tb", "TextBlock"), ("ti", "TreeViewItem"), ("txt", "TextBox")]

/-- Aliases of templates, styles and what belongs to them. -/
def stockStyling : List (String × String) :=
  [("ct", "ControlTemplate"), ("set", "Setter"), ("setter", "Setter"), ("style", "Style"),
   ("trig", "Trigger"), ("trigger", "Trigger")]

/-- Full names of controls, so that they can be written in any case. -/
def stockNames : List String :=
  ["Border", "Button", "Calendar", "Canvas", "CheckBox", "ComboBox", "ComboBoxItem",
   "ContentControl", "DataGrid", "DatePicker", "DockPanel", "DocumentViewer", "Ellipse", "Expander",
   "Frame", "Grid", "GridSplitter", "GroupBox", "Image", "Label", "ListBox", "ListBoxItem",
   "ListView", "MediaElement", "Menu", "MenuItem", "PasswordBox", "ProgressBar", "RadioButton",
   "Rectangle", "RelativePanel", "RichTextBox", "ScrollBar", "ScrollViewer", "Separator", "Slider",
   "StackPanel", "StatusBar", "TabControl", "TextBlock", "TextBox", "ToolBar", "ToolBarPanel",
   "ToolBarTray", "TreeView", "TreeViewItem", "Viewbox", "WebBrowser", "WindowsFormsHost",
   "WrapPanel"]

def stockEntries : List (Text × Text) :=
  (stockContainers ++ stockControls ++ stockStyling ++ [("toggle", "ToggleButton")]).map
      (fun (key, name) => (key.toList, name.toList)) ++
    stockNames.map fun name => (name.toList.map Char.toLower, name.toList)

def stock : Dictionary := Dictionary.ofList stockEntries

end Shorthand.Alias
