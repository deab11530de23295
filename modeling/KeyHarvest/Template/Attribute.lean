/-
The roles of attributes. The name of an attribute decides what it is: a
structural directive (`*x`), a two-way binding (`[(x)]`, `bindon-x`), an
input (`[x]`, `bind-x`), an output (`(x)`, `on-x`), a reference (`#x`,
`ref-x`) or a variable (`let-x`). Any other attribute is an input when its
value has interpolations, and a plain one when it has not. The rules are
tried in this order, so `[(x)]` is never an input named `(x)`.
-/
import KeyHarvest.Template.Node

namespace KeyHarvest.Template

/-- What an attribute is by its name, with the name that is bound. -/
inductive Role where
  | directive (name : Text)
  | twoWay (name : Text)
  | input (name : Text)
  | output (name : Text)
  | reference (name : Text)
  | variable (name : Text)
  | other
  deriving DecidableEq, Repr

namespace Role

/-- What stands between an opening and a closing, when a name has both. -/
def between? (opening closing name : Text) : Option Text :=
  if opening.isPrefixOf name && closing.isSuffixOf name then
    some ((name.drop opening.length).take (name.length - opening.length - closing.length))
  else none

/-- The kinds of properties that an input may name in front of a dot. -/
def propertyKinds : List Text := [Text.ofString "attr.", Text.ofString "class.",
  Text.ofString "style."]

/-- The name of an input without the kind of property it sets. -/
def propertyName (name : Text) : Text :=
  match propertyKinds.find? (·.isPrefixOf name) with
  | some kind => name.drop kind.length
  | none => name

/-- The rules in order: what a name looks like, and its role. -/
def rules : List ((Text → Option Text) × (Text → Role)) :=
  [(Text.after? ['*'], .directive),
   (between? ['[', '('] [')', ']'], .twoWay),
   (Text.after? (Text.ofString "bindon-"), .twoWay),
   (between? ['['] [']'], fun name => .input (propertyName name)),
   (Text.after? (Text.ofString "bind-"), fun name => .input (propertyName name)),
   (between? ['('] [')'], .output),
   (Text.after? (Text.ofString "on-"), .output),
   (Text.after? ['#'], .reference),
   (Text.after? (Text.ofString "ref-"), .reference),
   (Text.after? (Text.ofString "let-"), .variable)]

/-- The role of a name: the first rule that fits. -/
def ofName (name : Text) : Role :=
  (rules.findSome? fun rule => (rule.1 name).map rule.2).getD .other

end Role

end KeyHarvest.Template
