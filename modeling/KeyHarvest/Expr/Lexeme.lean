/-
Lexemes: the pieces that an expression text falls into. Reading never
fails and loses nothing, because a code point that begins nothing else is
a piece of its own; the pieces put together are the text again. Which
piece comes next is decided by the first code point and by how far its
class reaches (`extent`), always as far as it can.

`tokenize` then gives each piece its value. Blank pieces have none, and
here a stray code point, an open quotation or an oversized integer is
refused, at the first place where one stands.
-/
import KeyHarvest.Expr.Error
import KeyHarvest.Expr.Escape
import KeyHarvest.Text.Blank
import KeyHarvest.Text.Word

namespace KeyHarvest

-- ============================================================ lexemes

/-- The classes of pieces. -/
inductive LexemeKind where
  | blank
  | text
  | template
  | number
  | word
  | operator (op : Operator)
  | mark (m : Mark)
  | stray
  deriving DecidableEq, Repr

/-- A piece of a text. -/
structure Lexeme where
  kind : LexemeKind
  raw : Text
  deriving DecidableEq, Repr

namespace Lexeme

/-- A name begins with an ASCII letter, an underscore or a dollar sign. -/
def startsWord (c : CodePoint) : Bool := c.isAsciiLetter || c = '_' || c = '$'

/-- A name goes on with word characters and dollar signs. -/
def continuesWord (c : CodePoint) : Bool := c.isWord || c = '$'

/-- The length of the leading run of decimal digits. -/
def digitRun (t : Text) : Nat := (t.takeWhile CodePoint.isDigit).length

/-- The length of an exponent at the start of a text: the mark, a sign if
there is one, and at least one digit. -/
def exponentLength : Text → Nat
  | c :: cs =>
      if c = 'e' ∨ c = 'E' then
        match cs with
        | s :: ds =>
            if s = '+' ∨ s = '-' then
              if digitRun ds = 0 then 0 else digitRun ds + 2
            else if digitRun cs = 0 then 0 else digitRun cs + 1
        | [] => 0
      else 0
  | [] => 0

/-- The length of a number without its exponent: digits with at most one
point among or after them, or a point and digits. -/
def mantissaLength (t : Text) : Nat :=
  let whole := digitRun t
  match t.drop whole with
  | c :: cs =>
      if c = '.' then
        if whole = 0 ∧ digitRun cs = 0 then 0 else whole + 1 + digitRun cs
      else whole
  | [] => whole

/-- The length of the number at the start of a text, zero if there is
none. -/
def numberLength (t : Text) : Nat :=
  if mantissaLength t = 0 then 0
  else mantissaLength t + exponentLength (t.drop (mantissaLength t))

/-- The longest operator at the start of a text. Before a digit the mark
of a conditional is not joined with the point of a number. -/
def operator? (t : Text) : Option Operator :=
  Operator.all.find? fun op =>
    op.spelling.isPrefixOf t && !(op == .optional && digitRun (t.drop 2) != 0)

/-- The class of the piece at the start of a non-empty text, and how many
code points after the first belong to it. -/
def extent (c : CodePoint) (cs : Text) : LexemeKind × Nat :=
  if c.isBlank then (.blank, (cs.takeWhile CodePoint.isBlank).length)
  else if c = '\'' ∨ c = '"' then
    match Quoted.close? c cs with
    | some n => (.text, n)
    | none => (.stray, 0)
  else if c = '`' then
    match Quoted.close? c cs with
    | some n => (.template, n)
    | none => (.stray, 0)
  else if numberLength (c :: cs) ≠ 0 then (.number, numberLength (c :: cs) - 1)
  else if startsWord c then (.word, (cs.takeWhile continuesWord).length)
  else
    match operator? (c :: cs) with
    | some op => (.operator op, op.spelling.length - 1)
    | none =>
        match Mark.ofCodePoint? c with
        | some m => (.mark m, 0)
        | none => (.stray, 0)

/-- The pieces of a text in order. -/
def split : Text → List Lexeme
  | [] => []
  | c :: cs =>
      ⟨(extent c cs).1, c :: cs.take (extent c cs).2⟩ :: split (cs.drop (extent c cs).2)
termination_by t => t.length
decreasing_by simp only [List.length_cons, List.length_drop]; omega

/-- The pieces put together are the text. -/
theorem flatMap_raw_split (t : Text) : (split t).flatMap Lexeme.raw = t := by
  fun_induction split t with
  | case1 => rfl
  | case2 c cs ih => simp [ih]

/-- No piece is empty. -/
theorem raw_ne_nil_of_mem_split {t : Text} {l : Lexeme} (h : l ∈ split t) : l.raw ≠ [] := by
  fun_induction split t with
  | case1 => simp at h
  | case2 c cs ih =>
      rcases List.mem_cons.1 h with rfl | h
      · simp
      · exact ih h

end Lexeme

-- ============================================================= values

namespace Lexeme

/-- What stands between the first and the last code point. -/
def inner (t : Text) : Text := (t.drop 1).dropLast

/-- The number that a numeral denotes. Without point and exponent it is a
natural number, of limited length. -/
def numeral (raw : Text) : Except ExprError Number :=
  let whole := raw.takeWhile CodePoint.isDigit
  let rest := raw.drop whole.length
  if rest.isEmpty then
    if whole.length ≤ maxIntegerDigits then .ok (.integer (Text.digitsValue whole))
    else .error (.oversized whole.length)
  else
    let afterPoint : Text := if Text.starts '.' rest then rest.drop 1 else rest
    let fraction := if Text.starts '.' rest then afterPoint.takeWhile CodePoint.isDigit else []
    let exponent := (afterPoint.drop fraction.length).drop 1
    let size : Nat := Text.digitsValue (exponent.filter CodePoint.isDigit)
    let power : Int := if Text.starts '-' exponent then -size else size
    .ok (.float (.ofDecimal (Text.digitsValue (whole ++ fraction)) (power - fraction.length)))

/-- The token of a piece that starts at a position; blanks have none. -/
def token? (position : Nat) (l : Lexeme) : Except ExprError (Option (Token Text)) :=
  match l.kind with
  | .blank => .ok none
  | .text => .ok (some ⟨.text (Escape.decode (inner l.raw)), position⟩)
  | .template => .ok (some ⟨.template (inner l.raw), position⟩)
  | .number => (numeral l.raw).map fun n => some ⟨.number n, position⟩
  | .word =>
      match Keyword.ofName? l.raw with
      | some word => .ok (some ⟨.keyword word, position⟩)
      | none => .ok (some ⟨.name l.raw, position⟩)
  | .operator op => .ok (some ⟨.operator op, position⟩)
  | .mark m => .ok (some ⟨.mark m, position⟩)
  | .stray =>
      match l.raw with
      | c :: _ =>
          if c = '\'' ∨ c = '"' ∨ c = '`' then .error (.malformed .unterminatedQuote position)
          else .error (.malformed (.unexpectedCharacter c) position)
      | [] => .ok none

/-- The tokens of consecutive pieces, the first of which starts at a
position. -/
def tokens (position : Nat) : List Lexeme → Except ExprError (List (Token Text))
  | [] => .ok []
  | l :: ls => do
      let first ← l.token? position
      let rest ← tokens (position + l.raw.length) ls
      return first.toList ++ rest

end Lexeme

/-- The tokens of a text whose first code point has the given position. -/
def tokenize (start : Nat) (t : Text) : Except ExprError (List (Token Text)) :=
  Lexeme.tokens start (Lexeme.split t)

end KeyHarvest
