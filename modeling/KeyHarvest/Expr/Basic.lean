/-
The expressions of template bindings. A binding (`[key]="…"`) and an
interpolation (`a {{ … }} b`) hold an expression over the
component: literals, reads of properties, calls, pipes, conditionals and
operators. `Expr` has one constructor for each kind of node; what a
literal holds, and which operators there are, are types of their own.

Most kinds can never hold a translation key. They are kept because every
valid binding has a tree, and because the tree is what is reported.
-/
import KeyHarvest.Number.Spelling

namespace KeyHarvest

-- ========================================================== operators

/-- The reserved words. -/
inductive Keyword where
  | true | false | null | undefined | this | typeof | void
  deriving DecidableEq, Repr

namespace Keyword

/-- How a reserved word is written. -/
def spelling : Keyword → Text
  | .true => ['t', 'r', 'u', 'e']
  | .false => ['f', 'a', 'l', 's', 'e']
  | .null => ['n', 'u', 'l', 'l']
  | .undefined => ['u', 'n', 'd', 'e', 'f', 'i', 'n', 'e', 'd']
  | .this => ['t', 'h', 'i', 's']
  | .typeof => ['t', 'y', 'p', 'e', 'o', 'f']
  | .void => ['v', 'o', 'i', 'd']

/-- Every reserved word. -/
def all : List Keyword := [.true, .false, .null, .undefined, .this, .typeof, .void]

/-- The reserved word that a name spells, if it does. -/
def ofName? (name : Text) : Option Keyword := all.find? fun k => k.spelling = name

end Keyword

/-- The operators between two operands. -/
inductive BinaryOp where
  | or | and | coalesce
  | eq | ne | identical | distinct
  | lt | gt | le | ge
  | add | sub
  | mul | div | rem
  | pow
  deriving DecidableEq, Repr

namespace BinaryOp

/-- How a binary operator is written. -/
def spelling : BinaryOp → Text
  | .or => ['|', '|']
  | .and => ['&', '&']
  | .coalesce => ['?', '?']
  | .eq => ['=', '=']
  | .ne => ['!', '=']
  | .identical => ['=', '=', '=']
  | .distinct => ['!', '=', '=']
  | .lt => ['<']
  | .gt => ['>']
  | .le => ['<', '=']
  | .ge => ['>', '=']
  | .add => ['+']
  | .sub => ['-']
  | .mul => ['*']
  | .div => ['/']
  | .rem => ['%']
  | .pow => ['*', '*']

/-- How loosely an operator binds. Level 0 is `**`, which associates to
the right; levels 1 to 7 associate to the left, and `||` is the loosest. -/
def level : BinaryOp → Nat
  | .pow => 0
  | .mul | .div | .rem => 1
  | .add | .sub => 2
  | .lt | .gt | .le | .ge => 3
  | .eq | .ne | .identical | .distinct => 4
  | .coalesce => 5
  | .and => 6
  | .or => 7

/-- The loosest level. -/
def loosest : Nat := 7

end BinaryOp

/-- The operators before one operand that keep no node of their own. -/
inductive UnaryOp where
  | minus | plus | void
  deriving DecidableEq, Repr

namespace UnaryOp

/-- How a unary operator is written. -/
def spelling : UnaryOp → Text
  | .minus => ['-']
  | .plus => ['+']
  | .void => Keyword.void.spelling

end UnaryOp

-- =============================================================== trees

/-- A scalar that is known without running anything. -/
inductive Literal where
  | text (value : Text)
  | number (value : Number)
  | bool (value : Bool)
  | null
  | undefined
  deriving DecidableEq, Repr

/-- A key of a map literal, with or without quotes. -/
structure MapKey where
  name : Text
  quoted : Bool
  deriving DecidableEq, Repr

/-- An expression. `sourced` is the root of every parsed binding and keeps
its text; `interpolation` has one string more than expressions. -/
inductive Expr where
  | empty
  | context
  | this
  | literal (value : Literal)
  | array (items : List Expr)
  | map (keys : List MapKey) (values : List Expr)
  | interpolation (strings : List Text) (items : List Expr)
  | pipe (input : Expr) (name : Text) (args : List Expr)
  | conditional (test yes no : Expr)
  | binary (op : BinaryOp) (left right : Expr)
  | unary (op : UnaryOp) (operand : Expr)
  | not (operand : Expr)
  | typeof (operand : Expr)
  | assertion (operand : Expr)
  | property (receiver : Expr) (name : Text)
  | safeProperty (receiver : Expr) (name : Text)
  | index (receiver key : Expr)
  | safeIndex (receiver key : Expr)
  | call (receiver : Expr) (args : List Expr)
  | safeCall (receiver : Expr) (args : List Expr)
  | template (chunks : List Text) (items : List Expr)
  | sourced (expr : Expr) (source : Text)
  deriving Repr

end KeyHarvest
