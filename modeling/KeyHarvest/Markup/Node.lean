/-
Markup trees. A node has a kind, the span of the text it covers, its
children in order, and a mark that says whether something inside it is
malformed or was left open. Nodes hold no text; names and values are read
from the template at their spans.

`walk` lists the nodes of a forest before their descendants, `faults` the
outermost malformed ones; both keep a worklist of the nodes still to be
seen, and the number of nodes in it bounds their run.
-/
import KeyHarvest.Text.Basic

namespace KeyHarvest.Markup

/-- What a node is. `fault` covers text that fits nowhere, and `absent` is
a token that was expected and is not there. -/
inductive Kind where
  | document
  | element
  | script
  | style
  | comment
  | doctype
  | text
  | entity
  | startTag
  | selfClosingTag
  | endTag
  | strayEndTag
  | tagName
  | attribute
  | attributeName
  | attributeValue
  | rawText
  | fault
  | absent (token : Text)
  deriving DecidableEq, Repr

/-- A node of the tree with its span in code points. -/
structure Node where
  kind : Kind
  start : Nat
  stop : Nat
  flawed : Bool
  children : List Node

namespace Node

/-- A node that marks a place where the text is malformed. -/
def isFault (n : Node) : Bool :=
  match n.kind with
  | .fault | .absent _ => true
  | _ => false

/-- A node over its children; it is flawed when one of them is. -/
def branch (kind : Kind) (start stop : Nat) (children : List Node) : Node :=
  ⟨kind, start, stop, children.any (·.flawed), children⟩

/-- A node without children. -/
def leaf (kind : Kind) (start stop : Nat) : Node := ⟨kind, start, stop, false, []⟩

/-- A malformed place. -/
def broken (kind : Kind) (start stop : Nat) : Node := ⟨kind, start, stop, true, []⟩

-- ============================================================= counts

mutual

/-- The number of nodes in a tree. -/
def count : Node → Nat
  | ⟨_, _, _, _, children⟩ => countAll children + 1

/-- The number of nodes in a forest. -/
def countAll : List Node → Nat
  | [] => 0
  | n :: ns => count n + countAll ns

end

theorem count_eq (n : Node) : count n = countAll n.children + 1 := by
  cases n; simp [count]

@[simp] theorem countAll_append (ns ms : List Node) :
    countAll (ns ++ ms) = countAll ns + countAll ms := by
  induction ns with
  | nil => simp [countAll]
  | cons n ns ih => simp [countAll, ih]; omega

-- ============================================================== walks

/-- The nodes of a worklist, each before its descendants. -/
def walk : List Node → List Node
  | [] => []
  | n :: ns => n :: walk (n.children ++ ns)
termination_by ns => countAll ns
decreasing_by simp [countAll, count_eq]

/-- The nodes of a tree of one kind, in document order. -/
def findAll (n : Node) (kind : Kind) : List Node := (walk [n]).filter (·.kind = kind)

/-- The outermost malformed places of a worklist. Nodes without a flaw
are not entered. -/
def faults : List Node → List Node
  | [] => []
  | n :: ns =>
      if n.isFault then n :: faults ns
      else if n.flawed then faults (n.children ++ ns)
      else faults ns
termination_by ns => countAll ns
decreasing_by all_goals (simp only [countAll, countAll_append, count_eq]; omega)

/-- The first child of a kind. -/
def child? (n : Node) (kind : Kind) : Option Node := n.children.find? (·.kind = kind)

end Node

end KeyHarvest.Markup
