/-
Why an expression is refused. Every cause has one wording and is reported
with a position, counted in code points from the start of the text that
was handed in. An integer literal with too many digits is refused for its
length alone; that refusal has no position, and it is no fault of the
grammar, so whoever turns malformed expressions into errors of their own
passes it on unchanged.
-/
import KeyHarvest.Expr.Token
import KeyHarvest.Number.Limit

namespace KeyHarvest

/-- What is wrong at a position of an expression. -/
inductive ExprFault where
  | unterminatedQuote
  | unexpectedCharacter (c : CodePoint)
  | unexpectedToken (shown : Text)
  | unexpectedKeyword (word : Keyword)
  | unexpectedEnd
  | missingPipeName
  | missingAlternative
  | missingPropertyName
  | missingSafePropertyName
  | unclosedGroup
  | unclosedIndex
  | unclosedSequence (closer : Mark)
  | missingMapKey
  | missingMapColon
  | unclosedMap
  | unclosedSubstitution
  | blankInterpolation
  deriving DecidableEq, Repr

namespace ExprFault

/-- The wording of a fault. -/
def message : ExprFault → Text
  | .unterminatedQuote => "Unterminated quote"
  | .unexpectedCharacter c => "Unexpected character '" ++ [c] ++ "'"
  | .unexpectedToken shown => "Unexpected token '" ++ shown ++ "'"
  | .unexpectedKeyword word => "Unexpected keyword '" ++ word.spelling ++ "'"
  | .unexpectedEnd => "Unexpected end of expression"
  | .missingPipeName => "Expected pipe name after '|'"
  | .missingAlternative => "Conditional expression requires all 3 expressions"
  | .missingPropertyName => "Expected identifier for property access"
  | .missingSafePropertyName => "Expected identifier after '?.'"
  | .unclosedGroup => "Expected ')' after grouped expression"
  | .unclosedIndex => "Expected ']' after key"
  | .unclosedSequence closer => "Expected ',' or '" ++ [(closer.char : CodePoint)] ++ "'"
  | .missingMapKey => "Expected identifier or string as map key"
  | .missingMapColon => "Expected ':' after quoted map key"
  | .unclosedMap => "Expected ',' or '\x7d' in map literal"
  | .unclosedSubstitution => "Unterminated template literal substitution"
  | .blankInterpolation => "Blank expressions are not allowed in interpolated strings"

end ExprFault

/-- The refusal of an expression. -/
inductive ExprError where
  | malformed (fault : ExprFault) (position : Nat)
  | oversized (digits : Nat)
  deriving DecidableEq, Repr

end KeyHarvest
