/-
Printing expressions. `Expr.tokens` is the token list of an expression,
and `Expr.print` writes these tokens with one space between neighbours.
Reading the print back is the subject of RoundTrip.lean.

# Parentheses

Every part of an expression stands in a slot: a symbol of the grammar,
and for the parts of choices and pipes the role as well (`Slot`). An
expression is put in parentheses when its own symbol is looser than that
of its slot. Two cases are left, where the symbol would do and reading
would still take too much: a pipe in a branch would swallow the colon or
the pipe that comes after the choice, and a choice at the input or in an
argument of a pipe would swallow the pipe itself.

# Which expressions

`Printable` leaves out what no text spells, or not by itself: the bare
context and the empty expression, floating-point numbers and oversized
ones, backtick literals, and maps whose keys and values do not match.
-/
import KeyHarvest.Proofs.Expr.Derivation
import Mathlib.Algebra.Group.Nat.Defs

namespace KeyHarvest

-- ============================================================== slots

namespace Grammar

/-- How loosely a symbol binds. -/
def Symbol.rank : Symbol → Nat
  | .primary => 0
  | .access => 1
  | .unary => 2
  | .binary level => 3 + level
  | .cond => 4 + BinaryOp.loosest
  | .pipe => 5 + BinaryOp.loosest

/-- The place of a part in an expression: an operand of some symbol, a
branch of a choice, the input of a pipe, or one of its arguments. -/
inductive Slot where
  | operand (s : Symbol)
  | branch
  | input
  | argument
  deriving DecidableEq, Repr

/-- The symbol that the grammar has in a slot. -/
def Slot.symbol : Slot → Symbol
  | .operand s => s
  | .branch => .pipe
  | .input => .pipe
  | .argument => .cond

end Grammar

open Grammar

namespace BinaryOp

/-- The symbol left of an operator. The levels above `**` associate to
the left, so theirs is the level itself. -/
def leftSymbol (op : BinaryOp) : Symbol :=
  match op.level with
  | 0 => .unary
  | n + 1 => .binary (n + 1)

/-- The symbol right of an operator; `**` associates to the right. -/
def rightSymbol (op : BinaryOp) : Symbol :=
  match op.level with
  | 0 => .binary 0
  | n + 1 => .binary n

end BinaryOp

namespace Expr

/-- The symbol whose production is at the top of an expression. -/
def symbol : Expr → Symbol
  | .property .context _ => .primary
  | .property _ _ | .safeProperty _ _ => .access
  | .index _ _ | .safeIndex _ _ => .access
  | .call _ _ | .safeCall _ _ => .access
  | .assertion _ => .access
  | .not _ | .typeof _ | .unary _ _ => .unary
  | .binary op _ _ => .binary op.level
  | .conditional _ _ _ => .cond
  | .pipe _ _ _ => .pipe
  | _ => .primary

end Expr

/-- Whether an expression needs parentheses in a slot. -/
def Grammar.Slot.encloses (slot : Slot) (e : Expr) : Bool :=
  slot.symbol.rank < e.symbol.rank
    || (slot = .branch && e.symbol = .pipe)
    || ((slot = .input || slot = .argument) && e.symbol = .cond)

/-- The tokens of an expression as they stand in a slot. -/
def Grammar.Slot.enclose (slot : Slot) (e : Expr) (ts : List (TokenKind Text)) :
    List (TokenKind Text) :=
  if slot.encloses e then .mark .openParen :: ts ++ [.mark .closeParen] else ts

-- ============================================================= tokens

/-- The token of a name, which may be a reserved word. -/
def nameToken (n : Text) : TokenKind Text :=
  match Keyword.ofName? n with
  | some word => .keyword word
  | none => .name n

/-- The token of a map key. -/
def MapKey.token (key : MapKey) : TokenKind Text :=
  if key.quoted then .text key.name else nameToken key.name

/-- The token of a literal. -/
def Literal.token : Literal → TokenKind Text
  | .text value => .text value
  | .number value => .number value
  | .bool true => .keyword .true
  | .bool false => .keyword .false
  | .null => .keyword .null
  | .undefined => .keyword .undefined

/-- The token of a unary operator. -/
def UnaryOp.token : UnaryOp → TokenKind Text
  | .minus => .operator (.binary .sub)
  | .plus => .operator (.binary .add)
  | .void => .keyword .void

namespace Expr

/-- The tokens of an expression. What no text spells has none. -/
def tokens : Expr → List (TokenKind Text)
  | .literal value => [value.token]
  | .this => [.keyword .this]
  | .array items =>
      .mark .openBracket :: separated (items.map tokens) ++ [.mark .closeBracket]
  | .map keys values =>
      .mark .openBrace
        :: separated (keys.zipWith (fun k ts => k.token :: .mark .colon :: ts) (values.map tokens))
        ++ [.mark .closeBrace]
  | .pipe input name args =>
      Slot.input.enclose input (tokens input)
        ++ .operator .bar :: nameToken name
        :: introduced (args.map fun a => Slot.argument.enclose a (tokens a))
  | .conditional test yes no =>
      (Slot.operand (.binary BinaryOp.loosest)).enclose test (tokens test)
        ++ .operator .question :: Slot.branch.enclose yes (tokens yes)
        ++ .mark .colon :: Slot.branch.enclose no (tokens no)
  | .binary op left right =>
      (Slot.operand op.leftSymbol).enclose left (tokens left)
        ++ .operator (.binary op) :: (Slot.operand op.rightSymbol).enclose right (tokens right)
  | .unary op x => op.token :: (Slot.operand .unary).enclose x (tokens x)
  | .not x => .operator .bang :: (Slot.operand .unary).enclose x (tokens x)
  | .typeof x => .keyword .typeof :: (Slot.operand .unary).enclose x (tokens x)
  | .assertion x => (Slot.operand .access).enclose x (tokens x) ++ [.operator .bang]
  | .property .context name => [.name name]
  | .property x name =>
      (Slot.operand .access).enclose x (tokens x) ++ [.mark .dot, nameToken name]
  | .safeProperty x name =>
      (Slot.operand .access).enclose x (tokens x) ++ [.operator .optional, nameToken name]
  | .index x key =>
      (Slot.operand .access).enclose x (tokens x)
        ++ .mark .openBracket :: tokens key ++ [.mark .closeBracket]
  | .safeIndex x key =>
      (Slot.operand .access).enclose x (tokens x)
        ++ .operator .optional :: .mark .openBracket :: tokens key ++ [.mark .closeBracket]
  | .call x args =>
      (Slot.operand .access).enclose x (tokens x)
        ++ .mark .openParen :: separated (args.map tokens) ++ [.mark .closeParen]
  | .safeCall x args =>
      (Slot.operand .access).enclose x (tokens x)
        ++ .operator .optional :: .mark .openParen :: separated (args.map tokens)
        ++ [.mark .closeParen]
  | _ => []

/-- A property of anything but the context is written behind it. -/
theorem tokens_property {x : Expr} (hx : x ≠ .context) (name : Text) :
    (Expr.property x name).tokens
      = (Slot.operand .access).enclose x x.tokens ++ [.mark .dot, nameToken name] := by
  rw [tokens]
  exact hx

-- Makes the equations of `tokens` here, once, and not again in every proof
-- that unfolds it.
attribute [local simp] tokens

end Expr

-- =============================================================== texts

/-- The quotes that a text can be written in. -/
inductive Quote where
  | single
  | double
  deriving DecidableEq, Repr

namespace Quote

/-- The code point of a quote. -/
def char : Quote → CodePoint
  | .single => '\''
  | .double => '"'

/-- A code point inside quotes; a backslash stands in front of
backslashes and of the quote. -/
def guard (q : Quote) (c : CodePoint) : Text :=
  if c = '\\' ∨ c = q.char then [CodePoint.ofChar '\\', c] else [c]

/-- A text inside quotes. -/
def escape (q : Quote) (t : Text) : Text := t.flatMap q.guard

/-- A text between two of the same code point. -/
def between (c : CodePoint) (t : Text) : Text := c :: t ++ [c]

/-- How a token is written. -/
def spell (q : Quote) : TokenKind Text → Text
  | .text value => between q.char (q.escape value)
  | .template body => between '`' body
  | k => k.shown id

end Quote

/-- An expression as a text: its tokens with one space between them. -/
def Expr.print (q : Quote) (e : Expr) : Text := Text.join [' '] (e.tokens.map q.spell)

-- ============================================================= domain

/-- Whether a text is a name, reserved or not. -/
def Text.isIdentifier : Text → Bool
  | [] => false
  | c :: cs => Lexeme.startsWord c && cs.all Lexeme.continuesWord

/-- A literal that a token spells: any but a floating-point number and an
integer of too many digits. -/
def Literal.Printable : Literal → Prop
  | .number (.integer n) => n < 10 ^ maxIntegerDigits
  | .number (.float _) => False
  | _ => True

/-- A key that a token spells. -/
def MapKey.Printable (key : MapKey) : Prop :=
  key.quoted = true ∨ Text.isIdentifier key.name = true

/-- The expressions that can be printed. -/
inductive Expr.Printable : Expr → Prop where
  | literal {value : Literal} (h : value.Printable) : Printable (.literal value)
  | this : Printable .this
  | name {n : Text} (hn : Text.isIdentifier n = true) (hk : Keyword.ofName? n = none) :
      Printable (.property .context n)
  | property {x : Expr} {n : Text} (hx : Printable x) (hn : Text.isIdentifier n = true) :
      Printable (.property x n)
  | safeProperty {x : Expr} {n : Text} (hx : Printable x) (hn : Text.isIdentifier n = true) :
      Printable (.safeProperty x n)
  | index {x key : Expr} (hx : Printable x) (hk : Printable key) : Printable (.index x key)
  | safeIndex {x key : Expr} (hx : Printable x) (hk : Printable key) :
      Printable (.safeIndex x key)
  | call {x : Expr} {args : List Expr} (hx : Printable x) (ha : ∀ a ∈ args, Printable a) :
      Printable (.call x args)
  | safeCall {x : Expr} {args : List Expr} (hx : Printable x) (ha : ∀ a ∈ args, Printable a) :
      Printable (.safeCall x args)
  | assertion {x : Expr} (hx : Printable x) : Printable (.assertion x)
  | not {x : Expr} (hx : Printable x) : Printable (.not x)
  | typeof {x : Expr} (hx : Printable x) : Printable (.typeof x)
  | unary {op : UnaryOp} {x : Expr} (hx : Printable x) : Printable (.unary op x)
  | binary {op : BinaryOp} {left right : Expr} (hl : Printable left) (hr : Printable right) :
      Printable (.binary op left right)
  | conditional {test yes no : Expr} (ht : Printable test) (hy : Printable yes)
      (hn : Printable no) : Printable (.conditional test yes no)
  | pipe {input : Expr} {name : Text} {args : List Expr} (hi : Printable input)
      (hn : Text.isIdentifier name = true) (ha : ∀ a ∈ args, Printable a) :
      Printable (.pipe input name args)
  | array {items : List Expr} (h : ∀ e ∈ items, Printable e) : Printable (.array items)
  | map {keys : List MapKey} {values : List Expr} (hlen : keys.length = values.length)
      (hk : ∀ k ∈ keys, k.Printable) (hv : ∀ v ∈ values, Printable v) :
      Printable (.map keys values)

/-- What is printed is not the bare receiver. -/
theorem Expr.Printable.ne_context {x : Expr} (h : x.Printable) : x ≠ .context := by
  intro hx
  subst hx
  cases h

end KeyHarvest
