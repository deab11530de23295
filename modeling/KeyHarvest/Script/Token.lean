/-
The tokens of a script, as far as decorators need them: words, numbers,
strings, regular expressions, brackets and single marks, each with its
span. Comments and blanks leave no token. A backtick literal is a bracket
pair of its own whose text leaves no tokens either, and a `${…}` inside it
is another pair around code. So is an element in a script with markup: its
tags and its text leave no tokens, and a `{…}` inside it encloses code.

A slash begins a regular expression where no operand has just ended, and
is a division elsewhere; in the same way an angle bracket begins an
element or compares. The sources are valid, so what stands right before a
place is enough to tell, once it is known how the bracket was opened that
closes there.
-/
import KeyHarvest.Script.Extent

namespace KeyHarvest.Script

/-- Whether scripts may hold elements of markup. -/
inductive Dialect where
  | plain
  | markup
  deriving DecidableEq, Repr

/-- The pairs that enclose something. -/
inductive Bracket where
  | paren
  | square
  | brace
  | template
  | substitution
  | element
  deriving DecidableEq, Repr

/-- What a token is. -/
inductive TokenKind where
  | word
  | number
  | string
  | regex
  | opening (b : Bracket)
  | closing (b : Bracket)
  | arrow
  | spread
  | mark (c : CodePoint)
  deriving DecidableEq, Repr

/-- A token and its span. -/
structure Token where
  kind : TokenKind
  start : Nat
  stop : Nat
  deriving DecidableEq, Repr

-- ============================================================== state

/-- What stands before a place in code, as far as it decides how the code
goes on. -/
inductive Before where
  /-- An operator: an operand follows, and a brace begins an object. -/
  | operator
  /-- The start of a statement or of a body: a brace begins a block. -/
  | statement
  /-- The end of an operand. -/
  | operand
  /-- A dot: a name follows, whatever it spells. -/
  | dot
  /-- A word with a condition in parentheses behind it. -/
  | control
  deriving DecidableEq, Repr

namespace Before

/-- Whether an operand may begin. -/
def expectsOperand : Before → Bool
  | .operator | .statement => true
  | .operand | .dot | .control => false

/-- The words with a condition behind them. -/
def controlWords : List String := ["if", "while", "for", "with"]

/-- The words before an operand. -/
def operatorWords : List String :=
  ["return", "typeof", "case", "in", "of", "delete", "void", "throw", "new", "instanceof", "yield",
   "await", "extends", "default"]

/-- The words before a statement. -/
def statementWords : List String := ["do", "else"]

/-- What a word leaves behind. -/
def word (b : Before) (w : Text) : Before :=
  if b = .dot then .operand
  else if Text.isOneOf controlWords w then .control
  else if b = .control && Text.isOneOf ["await"] w then .control
  else if Text.isOneOf operatorWords w then .operator
  else if Text.isOneOf statementWords w then .statement
  else .operand

/-- What a mark leaves behind, when `cs` follows it. A mark that an operand
has just ended before may belong to it. -/
def mark (b : Before) (c : CodePoint) (cs : Text) : Before :=
  if c = '.' || c = '#' then .dot
  else if c = ';' || c = ':' || c = '>' then .statement
  else if c = '!' && b = .operand && !Text.starts '=' cs then .operand
  else .operator

end Before

/-- Where a place is, as far as it decides how the text is read. -/
inductive Context where
  /-- Parentheses, and whether they enclose a condition. -/
  | paren (control : Bool)
  /-- Braces, and whether they enclose an object. -/
  | brace (object : Bool)
  /-- The text of a backtick literal. -/
  | template
  /-- Code inside a backtick literal. -/
  | substitution
  /-- The start tag of an element. -/
  | tag
  /-- The content of an element. -/
  | content
  deriving DecidableEq, Repr

/-- Where the reader stands: the contexts, innermost first, and what stands
before. -/
structure State where
  contexts : List Context
  before : Before

/-- One step of the reader: the token, if there is one, the number of code
points after the first that belong to it, and the state behind it. -/
structure Step where
  kind : Option TokenKind
  extra : Nat
  next : State

namespace State

/-- A step over something that leaves no token and changes nothing. -/
def skip (s : State) (extra : Nat) : Step := ⟨none, extra, s⟩

/-- A token, and what it leaves behind. -/
def token (s : State) (kind : TokenKind) (extra : Nat) (before : Before) : Step :=
  ⟨some kind, extra, { s with before }⟩

/-- A token that opens a context. -/
def enter (s : State) (b : Bracket) (extra : Nat) (c : Context) (before : Before) : Step :=
  ⟨some (.opening b), extra, ⟨c :: s.contexts, before⟩⟩

/-- A token that closes the innermost context. -/
def leave (s : State) (b : Bracket) (extra : Nat) (before : Before) : Step :=
  ⟨some (.closing b), extra, ⟨s.contexts.drop 1, before⟩⟩

end State

-- ============================================================== steps

/-- The step inside the text of a backtick literal. -/
def templateStep (s : State) (c : CodePoint) (cs : Text) : Step :=
  if c = '`' then s.leave .template 0 .operand
  else if c = '\\' then s.skip 1
  else if c = '$' ∧ Text.starts '{' cs then s.enter .substitution 1 .substitution .operator
  else s.skip 0

/-- The step inside a start tag. Behind `=` stands the value of an
attribute, and an angle bracket elsewhere encloses type arguments. -/
def tagStep (s : State) (c : CodePoint) (cs : Text) : Step :=
  if isSpace c then s.skip 0
  else if c = '/' ∧ Text.starts '>' cs then s.leave .element 1 .operand
  else if c = '/' ∧ (commentLength? cs).isSome then s.skip ((commentLength? cs).getD 0)
  else if c = '>' then ⟨none, 0, ⟨.content :: s.contexts.drop 1, .operand⟩⟩
  else if c = '{' then s.enter .brace 0 (.brace false) .statement
  else if c = '<' then
    if s.before = .operator then s.enter .element 0 .tag .operand
    else s.skip (typesLength 1 c cs)
  else if c = '\'' ∨ c = '"' then
    ⟨none, (quotedLength? c cs).getD 0, { s with before := .operand }⟩
  else ⟨none, 0, { s with before := if c = '=' then .operator else .operand }⟩

/-- The step inside the content of an element. -/
def contentStep (s : State) (c : CodePoint) (cs : Text) : Step :=
  if c = '{' then s.enter .brace 0 (.brace false) .statement
  else if c = '<' then
    if Text.starts '/' (cs.dropWhile isSpace) then
      s.leave .element ((quotedLength? '>' cs).getD cs.length) .operand
    else s.enter .element 0 .tag .operand
  else s.skip 0

/-- The step at a bracket that closes code. -/
def closingStep (s : State) (c : CodePoint) : Step :=
  match s.contexts with
  | .substitution :: _ => if c = '}' then s.leave .substitution 0 .operand else s.skip 0
  | .brace object :: _ =>
      if c = '}' then s.leave .brace 0 (if object then .operand else .statement) else s.skip 0
  | .paren control :: _ =>
      if c = ')' then s.leave .paren 0 (if control then .statement else .operand) else s.skip 0
  | _ => s.skip 0

/-- The step at a mark in code. -/
def markStep (d : Dialect) (s : State) (c : CodePoint) (cs : Text) : Step :=
  if c = '/' && s.before.expectsOperand then
    match regexLength? false cs with
    | some n => s.token .regex (n + ((cs.drop n).takeWhile isWordChar).length) .operand
    | none => s.token (.mark c) 0 .operator
  else if c = '<' && d = .markup && s.before.expectsOperand && startsElement cs then
    s.enter .element 0 .tag .operand
  else if c = '=' ∧ Text.starts '>' cs then s.token .arrow 1 .statement
  else if c = '.' ∧ (Text.after? ['.', '.'] cs).isSome then s.token .spread 2 .operator
  else if (c = '+' ∨ c = '-') ∧ Text.starts c cs then s.token (.mark c) 1 s.before
  else s.token (.mark c) 0 (s.before.mark c cs)

/-- The step in code. -/
def codeStep (d : Dialect) (s : State) (c : CodePoint) (cs : Text) : Step :=
  if isSpace c then s.skip 0
  else if c = '/' ∧ (commentLength? cs).isSome then s.skip ((commentLength? cs).getD 0)
  else if c = '\'' ∨ c = '"' then
    match stringLength? c cs with
    | some n => s.token .string n .operand
    | none => s.token (.mark c) 0 .operator
  else if c = '`' then s.enter .template 0 .template .operand
  else if c = '{' then s.enter .brace 0 (.brace (s.before = .operator)) .statement
  else if c = '(' then s.enter .paren 0 (.paren (s.before = .control)) .operator
  else if c = '}' ∨ c = ')' then closingStep s c
  else if c = '[' then s.token (.opening .square) 0 .operator
  else if c = ']' then s.token (.closing .square) 0 .operand
  else if c.isAsciiDigit ∨ (c = '.' ∧ (cs.head?.map CodePoint.isAsciiDigit).getD false) then
    s.token .number (numberLength (isHexNumeral c cs) c cs) .operand
  else
    match wordLength (c :: cs) with
    | 0 => markStep d s c cs
    | n + 1 => s.token .word n (s.before.word (c :: cs.take n))

/-- The step at a code point. -/
def step (d : Dialect) (s : State) (c : CodePoint) (cs : Text) : Step :=
  match s.contexts with
  | .template :: _ => templateStep s c cs
  | .tag :: _ => tagStep s c cs
  | .content :: _ => contentStep s c cs
  | _ => codeStep d s c cs

/-- The tokens of a text that starts at an offset. -/
def tokens (d : Dialect) (offset : Nat) (s : State) : Text → List Token
  | [] => []
  | c :: cs =>
      let r := step d s c cs
      let rest := tokens d (offset + 1 + r.extra) r.next (cs.drop r.extra)
      match r.kind with
      | some kind => ⟨kind, offset, offset + 1 + r.extra⟩ :: rest
      | none => rest
termination_by t => t.length
decreasing_by simp only [List.length_cons, List.length_drop]; omega

end KeyHarvest.Script
