/-
What is remembered of open elements. The names of the open elements share
a store of limited size, the outermost first. A name of the standard takes
one cell; any other takes a cell for each of its bytes, two more, and is
cut where it is too long. A name that finds no room is forgotten: the
element is still open, but nothing can be told from its name any more, and
no end tag will fit it.
-/
import KeyHarvest.Markup.Tag

namespace KeyHarvest.Markup

/-- The cells for the names of open elements. -/
def memorySize : Nat := 1020

/-- The most bytes that are kept of a name. -/
def longestName : Nat := 255

namespace TagName

/-- The cells that a name takes. -/
def cells : TagName → Nat
  | .listed _ => 1
  | .custom bytes => 2 + min longestName bytes.length

/-- Bytes with all that follows a zero made zero. -/
def blankAfterZero : List UInt8 → List UInt8
  | [] => []
  | b :: bs => if b = 0 then List.replicate (bs.length + 1) 0 else b :: blankAfterZero bs

/-- A name as it is kept. -/
def kept : TagName → TagName
  | .listed s => .listed s
  | .custom bytes => .custom (blankAfterZero (bytes.take longestName))

end TagName

/-- The name of an open element, unless it was forgotten. -/
abbrev OpenName := Option TagName

namespace OpenName

/-- The cells of the names of open elements; a forgotten one still takes
one. -/
def cells (names : List OpenName) : Nat :=
  (names.map fun n => (n.map TagName.cells).getD 1).foldr Nat.add 0

/-- What is remembered of a name, inside the elements of other names. -/
def remember (outer : List OpenName) (name : TagName) : OpenName :=
  if cells outer + name.cells < memorySize then some name.kept else none

end OpenName

end KeyHarvest.Markup
