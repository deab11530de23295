/-
The tokens of an expression. A token has a kind, with the value that its
spelling stands for, and the position of its first code point.

A backtick literal is one token to the lexer, and an expression with
expressions of its own to the grammar. `Token τ` leaves open what such a
token carries: its raw body when it comes from the lexer, and the body
with the outcome of reading it when it goes to the grammar.
-/
import KeyHarvest.Expr.Basic

namespace KeyHarvest

-- ==================================================== operators, marks

/-- The operator tokens: the binary ones, and those with other roles. -/
inductive Operator where
  | binary (op : BinaryOp)
  | bang
  | question
  | bar
  | assign
  | ampersand
  | optional
  deriving DecidableEq, Repr

namespace Operator

/-- How an operator is written. -/
def spelling : Operator → Text
  | .binary op => op.spelling
  | .bang => ['!']
  | .question => ['?']
  | .bar => ['|']
  | .assign => ['=']
  | .ampersand => ['&']
  | .optional => ['?', '.']

/-- Every operator, the longer spellings first. -/
def all : List Operator :=
  [.binary .identical, .binary .distinct,
   .optional, .binary .eq, .binary .ne, .binary .le, .binary .ge, .binary .and, .binary .or,
   .binary .coalesce, .binary .pow,
   .binary .sub, .binary .add, .binary .mul, .binary .div, .binary .rem, .binary .lt,
   .binary .gt, .bang, .question, .bar, .assign, .ampersand]

end Operator

/-- The brackets and separators. -/
inductive Mark where
  | openParen | closeParen | openBracket | closeBracket | openBrace | closeBrace
  | comma | colon | dot | semicolon
  deriving DecidableEq, Repr

namespace Mark

/-- How a mark is written. -/
def char : Mark → Char
  | .openParen => '('
  | .closeParen => ')'
  | .openBracket => '['
  | .closeBracket => ']'
  | .openBrace => '{'
  | .closeBrace => '}'
  | .comma => ','
  | .colon => ':'
  | .dot => '.'
  | .semicolon => ';'

/-- Every mark. -/
def all : List Mark :=
  [.openParen, .closeParen, .openBracket, .closeBracket, .openBrace, .closeBrace,
   .comma, .colon, .dot, .semicolon]

/-- The mark that a code point is, if it is one. -/
def ofCodePoint? (c : CodePoint) : Option Mark := all.find? fun m => c = m.char

end Mark

-- ============================================================= tokens

/-- What a token is; `τ` is what a backtick literal carries. -/
inductive TokenKind (τ : Type) where
  | keyword (word : Keyword)
  | name (name : Text)
  | text (value : Text)
  | number (value : Number)
  | template (body : τ)
  | operator (op : Operator)
  | mark (m : Mark)

/-- A token and the position of its first code point. -/
structure Token (τ : Type) where
  kind : TokenKind τ
  position : Nat

namespace TokenKind

/-- The value of a token as messages show it. -/
def shown {τ : Type} (body : τ → Text) : TokenKind τ → Text
  | .keyword word => word.spelling
  | .name n => n
  | .text value => value
  | .number value => value.text
  | .template b => body b
  | .operator op => op.spelling
  | .mark m => [m.char]

end TokenKind

end KeyHarvest
