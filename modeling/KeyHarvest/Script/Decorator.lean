/-
The properties of decorator calls: in `@Component({template: '…'})`, every
`key: value` of an object that is an argument by itself, when the value is
exactly a string or an untagged backtick literal. Decorators stand on
classes, members and parameters at any depth, also inside the arguments of
another one; the properties come in the order of their values.
-/
import KeyHarvest.Script.Tree

namespace KeyHarvest.Script

/-- A span of the source. -/
structure Span where
  start : Nat
  stop : Nat
  deriving DecidableEq, Repr

/-- A property of a decorator call: the name of the decorator, the key and
the value as they are written. -/
structure Property where
  decorator : Span
  key : Span
  value : Span
  deriving DecidableEq, Repr

namespace Property

/-- The span of a tree. -/
def spanOf (t : Tree) : Span := ⟨t.start, t.stop⟩

/-- A key: a word, a string, a number, or an expression in brackets. -/
def isKey : Tree → Bool
  | .token t => t.kind = .word || t.kind = .string || t.kind = .number
  | .group b _ _ _ => b = .square

/-- A value that is known as it is written. -/
def isValue : Tree → Bool
  | .token t => t.kind = .string
  | .group b _ _ _ => b = .template

/-- The property of one member of an object, if it is one. -/
def ofMember? (decorator : Span) : List Tree → Option Property
  | [key, colon, value] =>
      if isKey key && colon.isMark ':' && isValue value then
        some ⟨decorator, spanOf key, spanOf value⟩
      else none
  | _ => none

/-- The properties of one argument, which must be an object. -/
def ofArgument (decorator : Span) : List Tree → List Property
  | [.group .brace _ _ items] => (Tree.splitCommas items).filterMap (ofMember? decorator)
  | _ => []

/-- The end of a name that goes on with further parts after dots, and the
trees behind it. -/
def nameEnd (stop : Nat) : List Tree → Nat × List Tree
  | dot :: part :: rest =>
      if dot.isMark '.' && part.isWord then nameEnd part.stop rest else (stop, dot :: part :: rest)
  | rest => (stop, rest)

/-- The trees behind type arguments, of which `depth` angle brackets are
open. -/
def afterTypes (depth : Nat) : List Tree → List Tree
  | [] => []
  | t :: ts =>
      if t.isMark '<' then afterTypes (depth + 1) ts
      else if t.isMark '>' then
        match depth with
        | 0 | 1 => ts
        | depth + 2 => afterTypes (depth + 1) ts
      else afterTypes depth ts

/-- The properties of a decorator, from the trees behind its `@`. -/
def ofDecorator : List Tree → List Property
  | [] => []
  | t :: ts =>
      if t.isWord then
        let (stop, rest) := nameEnd t.stop ts
        let rest := if (rest.head?.map (·.isMark '<')).getD false then afterTypes 0 rest else rest
        match rest with
        | .group .paren _ _ args :: _ =>
            (Tree.splitCommas args).flatMap (ofArgument ⟨t.start, stop⟩)
        | _ => []
      else []

mutual

/-- The properties of the decorators inside a tree. -/
def inTree : Tree → List Property
  | .token _ => []
  | .group _ _ _ items => inTrees items

/-- The properties of the decorators among trees and inside them. -/
def inTrees : List Tree → List Property
  | [] => []
  | t :: ts => (if t.isMark '@' then ofDecorator ts else []) ++ inTree t ++ inTrees ts

end

/-- The properties of all decorator calls of a source, in the order of
their values. -/
def all (d : Dialect) (source : Text) : List Property :=
  (inTrees (Tree.ofText d source)).mergeSort fun a b => a.value.start ≤ b.value.start

end Property

-- ============================================================ queries

/-- The name of the search for properties, which is the one there is. -/
def propertyQuery : Text := "decorator_properties"

/-- A search that there is not. -/
structure UnknownQuery where
  name : Text
  deriving DecidableEq, Repr

/-- The wording for a search that there is not. -/
def UnknownQuery.message (q : UnknownQuery) : Text := "Unknown query: " ++ q.name

/-- The result of a search by name. -/
def query (d : Dialect) (name source : Text) : Except UnknownQuery (List Property) :=
  if name = propertyQuery then .ok (Property.all d source) else .error ⟨name⟩

end KeyHarvest.Script
