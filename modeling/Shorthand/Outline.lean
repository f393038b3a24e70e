import Shorthand.Element

/-! Outlines: a forest written as one row per element, in preorder, each with its depth. -/

namespace Shorthand

/-- An element without its children, and its depth; elements at the top have depth 0. -/
structure OutlineRow where
  depth : Nat
  tag : Text
  attributes : List Attribute := []
  text : Option Text := none
deriving DecidableEq, Repr

/-- The element of a row before it has children. An attribute named twice keeps its last value. -/
def OutlineRow.element (row : OutlineRow) : Element where
  tag := row.tag
  attributes := row.attributes.foldl (fun done (name, value) => Element.assign name value done) []
  text := row.text

namespace Outline

mutual

def ofElement (depth : Nat) : Element → List OutlineRow
  | ⟨tag, attributes, children, text⟩ =>
    ⟨depth, tag, attributes, text⟩ :: ofForestAt (depth + 1) children

def ofForestAt (depth : Nat) : List Element → List OutlineRow
  | [] => []
  | e :: es => ofElement depth e ++ ofForestAt depth es

end

def ofForest (forest : List Element) : List OutlineRow := ofForestAt 0 forest

/-- Puts a row in front of trees that are listed with their depths: those that directly follow and
stand deeper become the children of the row's element. -/
def consRow (row : OutlineRow) (trees : List (Nat × Element)) : List (Nat × Element) :=
  let children := (trees.takeWhile (row.depth < ·.1)).map (·.2)
  (row.depth, row.element.adopt children) :: trees.dropWhile (row.depth < ·.1)

def toForest (rows : List OutlineRow) : List Element := (rows.foldr consRow []).map (·.2)

end Outline
end Shorthand
