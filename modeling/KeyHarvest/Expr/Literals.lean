/-
The literals that an expression can evaluate to. A value passes through
the branches of a conditional, the operands of an operator, the items of
arrays, maps and interpolations, and the input of a pipe. Conditions, pipe
arguments, map keys, receivers, keys and arguments decide on a value or
take part in another one, and no literal in them is found.

`Literal.key?` is the translation key that a literal is: its text, its
numeral, or the word of a truth value. The two empty values are none.
-/
import KeyHarvest.Expr.Basic

namespace KeyHarvest

namespace Expr

mutual

/-- The literals in value positions, from left to right. -/
def literals : Expr → List Literal
  | .literal value => [value]
  | .array items => literalsOf items
  | .map _ values => literalsOf values
  | .interpolation _ items => literalsOf items
  | .pipe input _ _ => literals input
  | .conditional _ yes no => literals yes ++ literals no
  | .binary _ left right => literals left ++ literals right
  | .sourced e _ => literals e
  | _ => []

/-- The literals of several expressions in order. -/
def literalsOf : List Expr → List Literal
  | [] => []
  | e :: es => literals e ++ literalsOf es

end

end Expr

namespace Literal

/-- The translation key that a literal is, if it is one. -/
def key? : Literal → Option Text
  | .text value => some value
  | .number value => some value.keyText
  | .bool value => some (if value then Keyword.true.spelling else Keyword.false.spelling)
  | .null => none
  | .undefined => none

end Literal

end KeyHarvest
