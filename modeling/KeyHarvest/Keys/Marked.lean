/-
Keys of marked elements: `<translate key="…">`. A marked element gives
keys from one source only: its key attribute if that has a value, else the
literals of its bound key attribute, else the trimmed text of its
children. Marked elements are found at any depth, each before those inside
it. A component file is read through its inline template.
-/
import KeyHarvest.Catalog.Basic
import KeyHarvest.Expr.Literals
import KeyHarvest.Script.Component
import KeyHarvest.Template.Build

namespace KeyHarvest

/-- What is searched for: the names of marked elements, and the attribute
that holds the key. -/
structure MarkedKeys where
  tagNames : List Text
  keyAttribute : Text
  deriving DecidableEq, Repr

namespace MarkedKeys

/-- The text of a child that is plain text. -/
def plainText? : Template.Node → Option Text
  | .text value => some (Text.trim value)
  | _ => none

/-- The keys of a marked element with its attributes and children. -/
def ownKeys (m : MarkedKeys) (plain : List Template.TextAttribute)
    (inputs : List Template.BoundAttribute) (children : List Template.Node) : List Text :=
  match plain.find? (·.name = m.keyAttribute) with
  | some ⟨_, c :: cs⟩ => [c :: cs]
  | _ =>
      match inputs.find? (·.name = m.keyAttribute) with
      | some b => b.value.literals.filterMap Literal.key?
      | none => children.filterMap plainText?

mutual

/-- The keys of a node and of what is inside it. -/
def nodeKeys (m : MarkedKeys) : Template.Node → List Text
  | .element name plain inputs _ _ children _ =>
      (if m.tagNames.contains name then m.ownKeys plain inputs children else [])
        ++ nodesKeys m children
  | .template _ _ children _ => nodesKeys m children
  | .text _ => []
  | .boundText _ => []

/-- The keys of nodes in order, with repetitions. -/
def nodesKeys (m : MarkedKeys) : List Template.Node → List Text
  | [] => []
  | n :: ns => nodeKeys m n ++ nodesKeys m ns

end

/-- The template of a file. -/
def templateOf (path source : Text) : Text :=
  if Script.isComponentFile path then
    Script.inlineTemplate (.ofExtension (extensionOf path)) source
  else source

/-- The keys of the marked elements of a file. -/
def extract (m : MarkedKeys) (path source : Text) : Except Template.Error Catalog := do
  let nodes ← Template.parse path (templateOf path source)
  return Catalog.empty.insertKeys (m.nodesKeys nodes)

end MarkedKeys

end KeyHarvest
