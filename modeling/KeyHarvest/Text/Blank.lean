/-
White space. A blank is a code point that separates tokens and that is
trimmed from the ends of a text: the ASCII controls 9 to 13 and 28 to 31,
the space, and the Unicode spaces and line separators. The zero-width
space and the byte order mark are no blanks.
-/
import KeyHarvest.Text.Basic

namespace KeyHarvest

/-- The blanks as closed ranges. -/
def blankRanges : List (Nat × Nat) :=
  [(0x9, 0xD), (0x1C, 0x20), (0x85, 0x85), (0xA0, 0xA0), (0x1680, 0x1680),
   (0x2000, 0x200A), (0x2028, 0x2029), (0x202F, 0x202F), (0x205F, 0x205F), (0x3000, 0x3000)]

/-- White space of any kind. -/
def CodePoint.isBlank (c : CodePoint) : Bool := c.inRanges blankRanges

namespace Text

/-- The text without blanks at either end. -/
def trim (t : Text) : Text := trimWhile CodePoint.isBlank t

/-- The text without blanks at its end. -/
def trimRight (t : Text) : Text := (t.reverse.dropWhile CodePoint.isBlank).reverse

/-- A text of blanks only; the empty text is one. -/
def isBlank (t : Text) : Bool := t.all CodePoint.isBlank

end Text

end KeyHarvest
