/-
Lines and places. A place is a line and a column, both counted from one
and both in code points; here only the line feed ends a line. Cutting a
text into lines knows more line ends: the carriage return, alone or with a
line feed, the form feed and the other separators of Unicode.
-/
import KeyHarvest.Text.Basic

namespace KeyHarvest

/-- A line and a column, counted from one. -/
structure Place where
  line : Nat
  column : Nat
  deriving DecidableEq, Repr

namespace Place

/-- The place after one more code point. -/
def next (p : Place) (c : CodePoint) : Place :=
  if c = '\n' then ⟨p.line + 1, 1⟩ else ⟨p.line, p.column + 1⟩

/-- The place of an offset in a text. -/
def ofOffset (t : Text) (offset : Nat) : Place := (t.take offset).foldl next ⟨1, 1⟩

end Place

/-- A code point that ends a line. -/
def CodePoint.isLineEnd (c : CodePoint) : Bool :=
  c.inRanges [(0xA, 0xD), (0x1C, 0x1E), (0x85, 0x85), (0x2028, 0x2029)]

namespace Text

/-- The code points of a text from one offset up to another. -/
def slice (t : Text) (start stop : Nat) : Text := (t.drop start).take (stop - start)

/-- What stands before the first line end. -/
def firstLine (t : Text) : Text := t.takeWhile fun c => !c.isLineEnd

/-- The lines of a text without their ends. A carriage return and a line
feed are one end, and the last line counts only if it is not empty. -/
def lines : Text → List Text
  | [] => []
  | c :: cs =>
      if c.isLineEnd then
        [] :: lines (if c = '\r' ∧ starts '\n' cs then cs.drop 1 else cs)
      else
        match lines cs with
        | [] => [[c]]
        | l :: ls => (c :: l) :: ls
termination_by t => t.length
decreasing_by
  · split
    · simp only [List.length_drop, List.length_cons]
      omega
    · simp
  · simp

end Text

end KeyHarvest
