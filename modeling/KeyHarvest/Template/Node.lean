/-
Template nodes: what a template holds once its markup is read and its
bindings are expressions. Elements and templates have children; a template
stands for an `ng-template` element, or wraps an element with a structural
directive such as `*ngIf`. Text without interpolations is kept with its
runs of white space collapsed, text with interpolations as an expression.
-/
import KeyHarvest.Expr.Basic

namespace KeyHarvest.Template

/-- An attribute with a text: `key="value"`. -/
structure TextAttribute where
  name : Text
  value : Text
  deriving DecidableEq, Repr

/-- An attribute with an expression: `[key]="…"` or `key="a {{ b }}"`. -/
structure BoundAttribute where
  name : Text
  value : Expr
  deriving Repr

/-- An event binding; its handler is not read. -/
structure BoundEvent where
  name : Text
  handler : Text
  deriving DecidableEq, Repr

/-- A name for an element: `#name`. -/
structure Reference where
  name : Text
  value : Text
  deriving DecidableEq, Repr

/-- A variable of a template: `let-name="value"`. -/
structure Variable where
  name : Text
  value : Text
  deriving DecidableEq, Repr

/-- The attributes of one tag, grouped by their role; every group keeps
the order of the tag. -/
structure Attributes where
  plain : List TextAttribute
  inputs : List BoundAttribute
  outputs : List BoundEvent
  references : List Reference
  locals : List Variable
  directives : List TextAttribute
  deriving Repr

namespace Attributes

/-- No attributes. -/
def empty : Attributes := ⟨[], [], [], [], [], []⟩

/-- The attributes of two stretches of a tag. -/
def append (a b : Attributes) : Attributes :=
  ⟨a.plain ++ b.plain, a.inputs ++ b.inputs, a.outputs ++ b.outputs,
   a.references ++ b.references, a.locals ++ b.locals, a.directives ++ b.directives⟩

end Attributes

/-- A node of a template, with the line where its tag begins. -/
inductive Node where
  | text (value : Text)
  | boundText (value : Expr)
  | element (name : Text) (plain : List TextAttribute) (inputs : List BoundAttribute)
      (outputs : List BoundEvent) (references : List Reference) (children : List Node)
      (line : Nat)
  | template (tag : Text) (attributes : Attributes) (children : List Node) (line : Nat)
  deriving Repr

end KeyHarvest.Template
