import Shorthand.Element
import Shorthand.Markup.Reference
import Shorthand.Text.Lines

/-!
Markup of a forest: one element per line, indented by depth. Values and texts are encoded while
writing and the whole is decoded at the end, so markup characters come out as they were typed.
-/

namespace Shorthand.Markup

def ofAttribute : Attribute → Text
  | (name, value) => ' ' :: name ++ '=' :: '"' :: value.flatMap Reference.encodeInValue ++ ['"']

def opening (tag : Text) (attributes : List Attribute) : Text :=
  '<' :: tag ++ attributes.flatMap ofAttribute

def closing (tag : Text) : Text := '<' :: '/' :: tag ++ ['>']

def padding (indent : Text) (depth : Nat) : Text := (List.replicate depth indent).flatten

mutual

def linesOf (indent : Text) (depth : Nat) : Element → List Text
  | ⟨tag, attributes, children, text⟩ =>
    match text, children with
    | some text, _ =>
      [padding indent depth ++ opening tag attributes ++ '>' :: text.flatMap Reference.encodeInText ++
        closing tag]
    | none, [] => [padding indent depth ++ opening tag attributes ++ [' ', '/', '>']]
    | none, child :: rest =>
      (padding indent depth ++ opening tag attributes ++ ['>']) ::
        (linesOf indent (depth + 1) child ++ linesOfAll indent (depth + 1) rest) ++
        [padding indent depth ++ closing tag]

def linesOfAll (indent : Text) (depth : Nat) : List Element → List Text
  | [] => []
  | e :: es => linesOf indent depth e ++ linesOfAll indent depth es

end

/-- The encoded markup of a forest, each line ended by a line feed. -/
def encoded (indent : Text) (forest : List Element) : Text :=
  (linesOfAll indent 0 forest).flatMap (· ++ ['\n'])

def render (indent : Text) (forest : List Element) : Text :=
  Text.Lines.tidy (Reference.decode (encoded indent forest))

end Shorthand.Markup
