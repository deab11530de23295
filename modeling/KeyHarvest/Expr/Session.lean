/-
Reading with a desk. The reader of expressions is an object that is used
for one text after the other. It keeps the tokens of the text that it is
at, the number of the next token, and where the text begins; the rules of
the grammar look at the next token and move past it. A substitution in a
backtick literal is a text of its own: it is read by the same object, which
puts its desk aside and takes it up again, whatever happens in between.

The rules are those of `Grammar`, which reads from a list that it is
handed. Here they are steps on a desk that everybody shares (`Rule.read`).
A refusal leaves the desk as it is at that moment; only `standalone`
restores it.
-/
import KeyHarvest.Expr.Interpolation

namespace KeyHarvest

-- =============================================================== desks

/-- A place in the list of tokens: a token, or the end of the text. Its
position counts from the start of the text. -/
structure Slot where
  kind : Option (TokenKind Text)
  position : Nat

/-- What the reader keeps: the tokens of its text, the number of the next
one, and the position of the text. -/
structure Desk where
  slots : List Slot
  next : Nat
  offset : Nat

namespace Desk

/-- The desk of a reader that has not read anything. -/
def fresh : Desk := ⟨[], 0, 0⟩

/-- The next token; behind the last one there is always an end. -/
def current (d : Desk) : Slot := d.slots.getD d.next ⟨none, d.slots.length⟩

/-- Past the next token, unless the text has ended. -/
def step (d : Desk) : Desk :=
  if d.current.kind.isSome then { d with next := d.next + 1 } else d

/-- The position of the next token in the outermost text. -/
def place (d : Desk) : Nat := d.offset + d.current.position

end Desk

/-- The tokens that the rules ask for by their spelling. -/
inductive Sign where
  | mark (m : Mark)
  | operator (op : Operator)
  | keyword (word : Keyword)

namespace Sign

/-- The token of a sign. -/
def kind {τ : Type} : Sign → TokenKind τ
  | .mark m => .mark m
  | .operator op => .operator op
  | .keyword word => .keyword word

/-- Whether a token is a sign. -/
def isAt {τ : Type} : Sign → TokenKind τ → Bool
  | .mark m, .mark m' => m = m'
  | .operator op, .operator op' => op = op'
  | .keyword word, .keyword word' => word = word'
  | _, _ => false

end Sign

-- =============================================================== steps

/-- A step of the reader. It looks at the desk and changes it, and is
refused or gives a value; nothing says yet that it ends. -/
abbrev ReadM := ExceptT ExprError (StateT Desk Option)

namespace ReadM

/-- The next token. -/
def current : ReadM Slot := return (← get).current

/-- Moves past the next token. -/
def advance : ReadM Unit := modify Desk.step

/-- Moves past the next token when it is the given one. -/
def accept (sign : Sign) : ReadM Bool := do
  if (← current).kind.any sign.isAt then
    advance
    return true
  else return false

/-- The refusal at the next token. -/
def refuse {α : Type} (fault : ExprFault) : ReadM α := do
  throw (.malformed fault (← get).place)

/-- The name that a token spells; reserved words are names too. -/
def nameOf? : TokenKind Text → Option Text
  | .name n => some n
  | .keyword word => some word.spelling
  | _ => none

/-- The map key that a token is; only a string is a quoted key. -/
def mapKeyOf? : TokenKind Text → Option MapKey
  | .text value => some ⟨value, true⟩
  | k => (nameOf? k).map fun n => ⟨n, false⟩

/-- The name that comes next. -/
def name (fault : ExprFault) : ReadM Text := do
  match (← current).kind.bind nameOf? with
  | some n => do
      advance
      return n
  | none => refuse fault

/-- Takes up a text: its tokens, from the first. -/
def begin (t : Text) (offset : Nat) : ReadM Unit :=
  match tokenize 0 t with
  | .ok ts =>
      let slots := ts.map (fun u => ⟨some u.kind, u.position⟩) ++ [⟨none, t.length⟩]
      set (⟨slots, 0, offset⟩ : Desk)
  | .error (.malformed fault p) => throw (.malformed fault (p + offset))
  | .error (.oversized n) => throw (.oversized n)

end ReadM

-- =============================================================== rules

/-- What the reader can be asked for: the rules of the grammar, with what
has been read before them, and what they give. -/
inductive Rule : Type → Type 1 where
  /-- An expression with its pipes. -/
  | pipe : Rule Expr
  /-- Further pipes after an input. -/
  | pipeTail (input : Expr) : Rule Expr
  /-- The arguments of a pipe, after those that have been read. -/
  | pipeArgs (args : List Expr) : Rule (List Expr)
  /-- An operand, or a choice between two expressions. -/
  | cond : Rule Expr
  /-- Operands joined by the operators of a level and of tighter ones. -/
  | binary (level : Nat) : Rule Expr
  /-- Further operators of the level above `level`, from left to right. -/
  | binaryTail (level : Nat) (left : Expr) : Rule Expr
  /-- A power, which associates to the right. -/
  | power : Rule Expr
  /-- An operand behind operators of its own. -/
  | unary : Rule Expr
  /-- A primary expression and what is read from it. -/
  | access : Rule Expr
  /-- Further reads, calls and assertions on a receiver. -/
  | accessTail (receiver : Expr) : Rule Expr
  /-- A key and its closing bracket. -/
  | keyTail : Rule Expr
  /-- An expression that no operator joins. -/
  | primary : Rule Expr
  /-- Items between commas up to a closing mark; there may be none. -/
  | sequence (closer : Mark) : Rule (List Expr)
  /-- At least one more item, and the closing mark. -/
  | items (closer : Mark) (before : List Expr) : Rule (List Expr)
  /-- The keys and values of a map up to its closing brace. -/
  | mapBody : Rule (List MapKey × List Expr)
  /-- At least one more entry, and the closing brace. -/
  | entries (keys : List MapKey) (values : List Expr) : Rule (List MapKey × List Expr)
  /-- The value of a map entry. A bare name without one reads the property
  of that name. -/
  | entryValue (key : MapKey) : Rule Expr
  /-- A backtick literal whose body starts at a position. -/
  | template (raw : Text) (start : Nat) : Rule Expr
  /-- The substitutions of a backtick literal, one after the other. -/
  | substitutions (start : Nat) (parts : List Substitution) : Rule (List Expr)
  /-- The expression of the text that has been taken up, all of it. -/
  | whole : Rule Expr
  /-- The expression of a text of its own. -/
  | standalone (t : Text) (offset : Nat) : Rule Expr

namespace Rule

open ReadM

/-- Reads by a rule. Nothing says yet that it ends. -/
def read : {α : Type} → Rule α → ReadM α
  | _, pipe => do
      let input ← cond |>.read
      pipeTail input |>.read
  | _, pipeTail input => do
      if ← accept (.operator .bar) then
        let n ← name .missingPipeName
        let args ← pipeArgs [] |>.read
        pipeTail (.pipe input n args) |>.read
      else return input
  | _, pipeArgs args => do
      if ← accept (.mark .colon) then
        let e ← cond |>.read
        pipeArgs (args ++ [e]) |>.read
      else return args
  | _, cond => do
      let test ← binary BinaryOp.loosest |>.read
      if ← accept (.operator .question) then
        let yes ← pipe |>.read
        if ← accept (.mark .colon) then
          let no ← pipe |>.read
          return .conditional test yes no
        else refuse .missingAlternative
      else return test
  | _, binary 0 => power |>.read
  | _, binary (level + 1) => do
      let left ← binary level |>.read
      binaryTail level left |>.read
  | _, binaryTail level left => do
      match (← current).kind with
      | some (.operator (.binary op)) =>
          if op.level = level + 1 then
            advance
            let right ← binary level |>.read
            binaryTail level (.binary op left right) |>.read
          else return left
      | _ => return left
  | _, power => do
      let base ← unary |>.read
      if ← accept (.operator (.binary .pow)) then
        let exponent ← power |>.read
        return .binary .pow base exponent
      else return base
  | _, unary => do
      if ← accept (.operator .bang) then return .not (← unary |>.read)
      else if ← accept (.operator (.binary .sub)) then return .unary .minus (← unary |>.read)
      else if ← accept (.operator (.binary .add)) then return .unary .plus (← unary |>.read)
      else if ← accept (.keyword .typeof) then return .typeof (← unary |>.read)
      else if ← accept (.keyword .void) then return .unary .void (← unary |>.read)
      else access |>.read
  | _, access => do
      let receiver ← primary |>.read
      accessTail receiver |>.read
  | _, accessTail receiver => do
      if ← accept (.mark .dot) then
        let n ← name .missingPropertyName
        accessTail (.property receiver n) |>.read
      else if ← accept (.operator .optional) then
        if ← accept (.mark .openBracket) then
          let key ← keyTail |>.read
          accessTail (.safeIndex receiver key) |>.read
        else if ← accept (.mark .openParen) then
          let args ← sequence .closeParen |>.read
          accessTail (.safeCall receiver args) |>.read
        else
          let n ← name .missingSafePropertyName
          accessTail (.safeProperty receiver n) |>.read
      else if ← accept (.mark .openBracket) then
        let key ← keyTail |>.read
        accessTail (.index receiver key) |>.read
      else if ← accept (.mark .openParen) then
        let args ← sequence .closeParen |>.read
        accessTail (.call receiver args) |>.read
      else if ← accept (.operator .bang) then accessTail (.assertion receiver) |>.read
      else return receiver
  | _, keyTail => do
      let key ← pipe |>.read
      if ← accept (.mark .closeBracket) then return key
      else refuse .unclosedIndex
  | _, primary => do
      let t ← current
      match t.kind with
      | none => refuse .unexpectedEnd
      | some (.mark .openParen) => do
          advance
          let e ← pipe |>.read
          if ← accept (.mark .closeParen) then return e
          else refuse .unclosedGroup
      | some (.keyword word) => do
          advance
          match word with
          | .null => return .literal .null
          | .undefined => return .literal .undefined
          | .true => return .literal (.bool true)
          | .false => return .literal (.bool false)
          | .this => return .this
          | word => throw (.malformed (.unexpectedKeyword word) ((← get).offset + t.position))
      | some (.text value) => do
          advance
          return .literal (.text value)
      | some (.number value) => do
          advance
          return .literal (.number value)
      | some (.template raw) => do
          advance
          template raw ((← get).offset + t.position + 1) |>.read
      | some (.mark .openBracket) => do
          advance
          return .array (← sequence .closeBracket |>.read)
      | some (.mark .openBrace) => do
          advance
          let (keys, values) ← mapBody |>.read
          return .map keys values
      | some (.name n) => do
          advance
          return .property .context n
      | some k => refuse (.unexpectedToken (k.shown id))
  | _, sequence closer => do
      if ← accept (.mark closer) then return []
      else items closer [] |>.read
  | _, items closer before => do
      let e ← pipe |>.read
      if ← accept (.mark .comma) then items closer (before ++ [e]) |>.read
      else if ← accept (.mark closer) then return before ++ [e]
      else refuse (.unclosedSequence closer)
  | _, mapBody => do
      if ← accept (.mark .closeBrace) then return ([], [])
      else entries [] [] |>.read
  | _, entries keys values => do
      match (← current).kind.bind mapKeyOf? with
      | none => refuse .missingMapKey
      | some key => do
          advance
          let value ← entryValue key |>.read
          if ← accept (.mark .comma) then entries (keys ++ [key]) (values ++ [value]) |>.read
          else if ← accept (.mark .closeBrace) then return (keys ++ [key], values ++ [value])
          else refuse .unclosedMap
  | _, entryValue key => do
      if ← accept (.mark .colon) then pipe |>.read
      else if key.quoted then refuse .missingMapColon
      else return .property .context key.name
  | _, template raw start => do
      let es ← substitutions start (BacktickBody.split 0 raw).parts |>.read
      liftExcept (Expr.ofBody start (BacktickBody.split 0 raw) es)
  | _, substitutions _ [] => return []
  | _, substitutions start (part :: parts) => do
      let e ← standalone part.code (start + part.offset) |>.read
      let es ← substitutions start parts |>.read
      return e :: es
  | _, whole => do
      match (← current).kind with
      | none => return .empty
      | some _ => do
          let e ← pipe |>.read
          match (← current).kind with
          | none => return e
          | some k => refuse (.unexpectedToken (k.shown id))
  | _, standalone t offset =>
      -- The desk is put aside before and taken up again behind, also
      -- behind a refusal.
      show StateT Desk Option (Except ExprError Expr) from do
        let saved ← get
        let outcome ← (do begin t offset; whole |>.read : ReadM Expr).run
        set saved
        return outcome
partial_fixpoint

/-- Below the operators of all levels there are powers. -/
theorem read_binary_zero : (binary 0).read = power.read := by rw [read]

-- Makes the equations of `read` here, once, and not again in every proof
-- that unfolds it.
attribute [local simp] read

end Rule

-- =============================================================== calls

namespace ReadM

/-- Reads an expression that no operator joins. -/
def primary : ReadM Expr := Rule.primary.read

/-- Reads a text of its own. -/
def standalone (t : Text) (offset : Nat) : ReadM Expr := (Rule.standalone t offset).read

/-- Reads the value of a property binding. -/
def binding (t : Text) : ReadM Expr := return .sourced (← standalone t 0) t

/-- Reads one chunk of code, which must not be blank. -/
def chunk (c : Chunk) : ReadM Expr :=
  if Text.isBlank c.code then throw (.malformed .blankInterpolation c.offset)
  else standalone c.code c.offset

/-- Reads the interpolations of a text, when it has any. -/
def interpolation (t : Text) : ReadM (Option Expr) :=
  match Interpolated.split t with
  | none => return none
  | some i => do
      let es ← i.chunks.mapM chunk
      return some (.sourced (.interpolation i.strings es) t)

end ReadM

/-- What the reader is asked for. -/
inductive Call where
  | binding (t : Text)
  | interpolation (t : Text)

namespace Call

/-- A call of the reader. -/
def run : Call → ReadM (Option Expr)
  | .binding t => return some (← ReadM.binding t)
  | .interpolation t => ReadM.interpolation t

/-- Calls of one reader, one after the other. A call that is refused does
not keep the next from being made. -/
def runAll : List Call → StateT Desk Option (List (Except ExprError (Option Expr)))
  | [] => return []
  | c :: cs => do
      let outcome ← c.run.run
      let outcomes ← runAll cs
      return outcome :: outcomes

end Call

end KeyHarvest
