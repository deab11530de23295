/-
The grammar of expressions, one function for each of its symbols:

    pipe     = cond ("|" name (":" cond)*)*
    cond     = binary ("?" pipe ":" pipe)?
    binary   = seven left-associative levels of operators over power
    power    = unary ("**" power)?
    unary    = ("!" | "-" | "+" | "typeof" | "void") unary | access
    access   = primary ("." name | "?." name | ("?.")? "[" pipe "]"
                 | ("?.")? "(" items ")" | "!")*
    primary  = "(" pipe ")" | literal | array | map | backtick | name

A function reads from the front of a token list and returns what is left.
`Reading` carries the proof that something was read, `Trailing` that
nothing was added, and with them the recursion descends: first on the
number of tokens, then on the rank of the symbol.

A backtick token brings the outcome of reading its body. The grammar looks
at it only when it reaches the token, so of two faults the one further
left is reported.
-/
import KeyHarvest.Expr.Lexeme

namespace KeyHarvest

-- ============================================================ readings

/-- A backtick literal: its raw body and the outcome of reading it. -/
structure Backtick where
  body : Text
  outcome : Except ExprError Expr

/-- The tokens that the grammar reads. -/
abbrev Item := Token Backtick

/-- A value read from the front of `ts`, and what is left of it. -/
structure Reading (α : Type) (ts : List Item) where
  value : α
  rest : List Item
  shorter : rest.length < ts.length

/-- A value that may have been read from nothing. -/
structure Trailing (α : Type) (ts : List Item) where
  value : α
  rest : List Item
  noLonger : rest.length ≤ ts.length

namespace Grammar

/-- The name that a token spells; reserved words are names too. -/
def nameOf? (t : Item) : Option Text :=
  match t.kind with
  | .name n => some n
  | .keyword word => some word.spelling
  | _ => none

/-- The map key that a token is; only a string is a quoted key. -/
def mapKeyOf? (t : Item) : Option MapKey :=
  match t.kind with
  | .text value => some ⟨value, true⟩
  | _ => (nameOf? t).map fun n => ⟨n, false⟩

/-- The position of the next token; the end of the text has one too. -/
def position (stop : Nat) : List Item → Nat
  | [] => stop
  | t :: _ => t.position

/-- The refusal at the next token. -/
def fail {α : Type} (stop : Nat) (fault : ExprFault) (ts : List Item) : Except ExprError α :=
  .error (.malformed fault (position stop ts))

/-- The token as a message shows it. -/
def shown (t : Item) : Text := t.kind.shown Backtick.body

-- ============================================================= symbols

variable (stop : Nat)

mutual

/-- An expression with its pipes. -/
def pipe (ts : List Item) : Except ExprError (Reading Expr ts) := do
  let ⟨input, r, h⟩ ← cond ts
  let ⟨e, s, h'⟩ ← pipeTail input r
  return ⟨e, s, by omega⟩
termination_by (ts.length, 6 + BinaryOp.loosest)

/-- Further pipes after an input. -/
def pipeTail (input : Expr) (ts : List Item) : Except ExprError (Trailing Expr ts) :=
  match ts with
  | ⟨.operator .bar, _⟩ :: t :: r =>
      match nameOf? t with
      | some name => do
          let ⟨args, s, h⟩ ← pipeArgs r
          let ⟨e, u, h'⟩ ← pipeTail (.pipe input name args) s
          return ⟨e, u, by simp only [List.length_cons]; omega⟩
      | none => fail stop .missingPipeName (t :: r)
  | [⟨.operator .bar, _⟩] => fail stop .missingPipeName []
  | ts => return ⟨input, ts, Nat.le_refl _⟩
termination_by (ts.length, 0)

/-- The arguments of a pipe. -/
def pipeArgs (ts : List Item) : Except ExprError (Trailing (List Expr) ts) :=
  match ts with
  | ⟨.mark .colon, _⟩ :: r => do
      let ⟨e, s, h⟩ ← cond r
      let ⟨es, u, h'⟩ ← pipeArgs s
      return ⟨e :: es, u, by simp only [List.length_cons]; omega⟩
  | ts => return ⟨[], ts, Nat.le_refl _⟩
termination_by (ts.length, 0)

/-- An operand, or a choice between two expressions. -/
def cond (ts : List Item) : Except ExprError (Reading Expr ts) := do
  let ⟨test, r, h⟩ ← binary BinaryOp.loosest ts
  match r, h with
  | ⟨.operator .question, _⟩ :: s, h =>
      have hs : s.length < ts.length := Nat.lt_of_succ_lt h
      let ⟨yes, u, hu⟩ ← pipe s
      match u, hu with
      | ⟨.mark .colon, _⟩ :: v, hu =>
          have hv : v.length < s.length := Nat.lt_of_succ_lt hu
          let ⟨no, w, hw⟩ ← pipe v
          return ⟨.conditional test yes no, w, by omega⟩
      | u, _ => fail stop .missingAlternative u
  | r, h => return ⟨test, r, h⟩
termination_by (ts.length, 5 + BinaryOp.loosest)

/-- Operands joined by the operators of a level and of tighter ones. -/
def binary (level : Nat) (ts : List Item) : Except ExprError (Reading Expr ts) :=
  match level with
  | 0 => power ts
  | level + 1 => do
      let ⟨left, r, h⟩ ← binary level ts
      let ⟨e, s, h'⟩ ← binaryTail level left r
      return ⟨e, s, by omega⟩
termination_by (ts.length, 4 + level)

/-- Further operators of the level above `level`, from left to right. -/
def binaryTail (level : Nat) (left : Expr) (ts : List Item) :
    Except ExprError (Trailing Expr ts) :=
  match ts with
  | ⟨.operator (.binary op), p⟩ :: r =>
      if op.level = level + 1 then do
        let ⟨right, s, h⟩ ← binary level r
        let ⟨e, u, h'⟩ ← binaryTail level (.binary op left right) s
        return ⟨e, u, by simp only [List.length_cons]; omega⟩
      else return ⟨left, ⟨.operator (.binary op), p⟩ :: r, Nat.le_refl _⟩
  | ts => return ⟨left, ts, Nat.le_refl _⟩
termination_by (ts.length, 0)

/-- A power, which associates to the right. -/
def power (ts : List Item) : Except ExprError (Reading Expr ts) := do
  let ⟨base, r, h⟩ ← unary ts
  match r, h with
  | ⟨.operator (.binary .pow), _⟩ :: s, h =>
      have hs : s.length < ts.length := Nat.lt_of_succ_lt h
      let ⟨exponent, u, h'⟩ ← power s
      return ⟨.binary .pow base exponent, u, by omega⟩
  | r, h => return ⟨base, r, h⟩
termination_by (ts.length, 3)

/-- An operand behind operators of its own. -/
def unary (ts : List Item) : Except ExprError (Reading Expr ts) :=
  match ts with
  | ⟨.operator .bang, _⟩ :: r => do
      let ⟨e, s, h⟩ ← unary r
      return ⟨.not e, s, by simp only [List.length_cons]; omega⟩
  | ⟨.operator (.binary .sub), _⟩ :: r => do
      let ⟨e, s, h⟩ ← unary r
      return ⟨.unary .minus e, s, by simp only [List.length_cons]; omega⟩
  | ⟨.operator (.binary .add), _⟩ :: r => do
      let ⟨e, s, h⟩ ← unary r
      return ⟨.unary .plus e, s, by simp only [List.length_cons]; omega⟩
  | ⟨.keyword .typeof, _⟩ :: r => do
      let ⟨e, s, h⟩ ← unary r
      return ⟨.typeof e, s, by simp only [List.length_cons]; omega⟩
  | ⟨.keyword .void, _⟩ :: r => do
      let ⟨e, s, h⟩ ← unary r
      return ⟨.unary .void e, s, by simp only [List.length_cons]; omega⟩
  | ts => access ts
termination_by (ts.length, 2)

/-- A primary expression and what is read from it. -/
def access (ts : List Item) : Except ExprError (Reading Expr ts) := do
  let ⟨receiver, r, h⟩ ← primary ts
  let ⟨e, s, h'⟩ ← accessTail receiver r
  return ⟨e, s, by omega⟩
termination_by (ts.length, 1)

/-- Further reads, calls and assertions on a receiver. -/
def accessTail (receiver : Expr) (ts : List Item) : Except ExprError (Trailing Expr ts) :=
  match ts with
  | ⟨.mark .dot, _⟩ :: t :: r =>
      match nameOf? t with
      | some name => do
          let ⟨e, s, h⟩ ← accessTail (.property receiver name) r
          return ⟨e, s, by simp only [List.length_cons]; omega⟩
      | none => fail stop .missingPropertyName (t :: r)
  | [⟨.mark .dot, _⟩] => fail stop .missingPropertyName []
  | ⟨.operator .optional, _⟩ :: ⟨.mark .openBracket, _⟩ :: r => do
      let ⟨key, s, h⟩ ← keyTail r
      let ⟨e, u, h'⟩ ← accessTail (.safeIndex receiver key) s
      return ⟨e, u, by simp only [List.length_cons]; omega⟩
  | ⟨.operator .optional, _⟩ :: ⟨.mark .openParen, _⟩ :: r => do
      let ⟨args, s, h⟩ ← sequence .closeParen r
      let ⟨e, u, h'⟩ ← accessTail (.safeCall receiver args) s
      return ⟨e, u, by simp only [List.length_cons]; omega⟩
  | ⟨.operator .optional, _⟩ :: t :: r =>
      match nameOf? t with
      | some name => do
          let ⟨e, s, h⟩ ← accessTail (.safeProperty receiver name) r
          return ⟨e, s, by simp only [List.length_cons]; omega⟩
      | none => fail stop .missingSafePropertyName (t :: r)
  | [⟨.operator .optional, _⟩] => fail stop .missingSafePropertyName []
  | ⟨.mark .openBracket, _⟩ :: r => do
      let ⟨key, s, h⟩ ← keyTail r
      let ⟨e, u, h'⟩ ← accessTail (.index receiver key) s
      return ⟨e, u, by simp only [List.length_cons]; omega⟩
  | ⟨.mark .openParen, _⟩ :: r => do
      let ⟨args, s, h⟩ ← sequence .closeParen r
      let ⟨e, u, h'⟩ ← accessTail (.call receiver args) s
      return ⟨e, u, by simp only [List.length_cons]; omega⟩
  | ⟨.operator .bang, _⟩ :: r => do
      let ⟨e, s, h⟩ ← accessTail (.assertion receiver) r
      return ⟨e, s, by simp only [List.length_cons]; omega⟩
  | ts => return ⟨receiver, ts, Nat.le_refl _⟩
termination_by (ts.length, 0)

/-- A key and its closing bracket. -/
def keyTail (ts : List Item) : Except ExprError (Reading Expr ts) := do
  let ⟨key, r, h⟩ ← pipe ts
  match r, h with
  | ⟨.mark .closeBracket, _⟩ :: s, h => return ⟨key, s, Nat.lt_of_succ_lt h⟩
  | r, _ => fail stop .unclosedIndex r
termination_by (ts.length, 7 + BinaryOp.loosest)

/-- An expression that no operator joins. Grouping leaves no node. -/
def primary (ts : List Item) : Except ExprError (Reading Expr ts) :=
  match ts with
  | [] => fail stop .unexpectedEnd []
  | t :: r =>
      match t.kind with
      | .mark .openParen => do
          let ⟨e, s, h⟩ ← pipe r
          match s, h with
          | ⟨.mark .closeParen, _⟩ :: u, h =>
              return ⟨e, u, by simp only [List.length_cons] at h ⊢; omega⟩
          | s, _ => fail stop .unclosedGroup s
      | .keyword .null => return ⟨.literal .null, r, by simp⟩
      | .keyword .undefined => return ⟨.literal .undefined, r, by simp⟩
      | .keyword .true => return ⟨.literal (.bool true), r, by simp⟩
      | .keyword .false => return ⟨.literal (.bool false), r, by simp⟩
      | .keyword .this => return ⟨.this, r, by simp⟩
      | .keyword word => fail stop (.unexpectedKeyword word) (t :: r)
      | .text value => return ⟨.literal (.text value), r, by simp⟩
      | .number value => return ⟨.literal (.number value), r, by simp⟩
      | .template b => do
          let e ← b.outcome
          return ⟨e, r, by simp⟩
      | .mark .openBracket => do
          let ⟨items, s, h⟩ ← sequence .closeBracket r
          return ⟨.array items, s, by simp only [List.length_cons]; omega⟩
      | .mark .openBrace => do
          let ⟨entries, s, h⟩ ← mapBody r
          return ⟨.map entries.1 entries.2, s, by simp only [List.length_cons]; omega⟩
      | .name n => return ⟨.property .context n, r, by simp⟩
      | .operator _ => fail stop (.unexpectedToken (shown t)) (t :: r)
      | .mark _ => fail stop (.unexpectedToken (shown t)) (t :: r)
termination_by (ts.length, 0)

/-- Items between commas up to a closing mark; there may be none. -/
def sequence (closer : Mark) (ts : List Item) :
    Except ExprError (Reading (List Expr) ts) :=
  match ts with
  | ⟨.mark m, p⟩ :: r =>
      if m = closer then return ⟨[], r, by simp⟩
      else items closer (⟨.mark m, p⟩ :: r)
  | ts => items closer ts
termination_by (ts.length, 8 + BinaryOp.loosest)

/-- At least one item, and the closing mark. -/
def items (closer : Mark) (ts : List Item) : Except ExprError (Reading (List Expr) ts) := do
  let ⟨e, r, h⟩ ← pipe ts
  match r, h with
  | ⟨.mark m, p⟩ :: s, h =>
      have hs : s.length < ts.length := Nat.lt_of_succ_lt h
      if m = .comma then
        let ⟨es, u, h'⟩ ← items closer s
        return ⟨e :: es, u, by omega⟩
      else if m = closer then return ⟨[e], s, hs⟩
      else fail stop (.unclosedSequence closer) (⟨.mark m, p⟩ :: s)
  | r, _ => fail stop (.unclosedSequence closer) r
termination_by (ts.length, 7 + BinaryOp.loosest)

/-- The keys and values of a map up to its closing brace. -/
def mapBody (ts : List Item) :
    Except ExprError (Reading (List MapKey × List Expr) ts) :=
  match ts with
  | ⟨.mark .closeBrace, _⟩ :: r => return ⟨([], []), r, by simp⟩
  | ts => entries ts
termination_by (ts.length, 1)

/-- At least one entry, and the closing brace. -/
def entries (ts : List Item) :
    Except ExprError (Reading (List MapKey × List Expr) ts) :=
  match ts with
  | [] => fail stop .missingMapKey []
  | t :: r =>
      match mapKeyOf? t with
      | none => fail stop .missingMapKey (t :: r)
      | some key => do
          let ⟨value, s, h⟩ ← entryValue key r
          match s, h with
          | ⟨.mark .comma, _⟩ :: u, h =>
              have hu : u.length < r.length := h
              let ⟨more, v, h'⟩ ← entries u
              return ⟨(key :: more.1, value :: more.2), v, by
                simp only [List.length_cons]; omega⟩
          | ⟨.mark .closeBrace, _⟩ :: u, h =>
              have hu : u.length < r.length := h
              return ⟨([key], [value]), u, Nat.lt_succ_of_lt hu⟩
          | s, _ => fail stop .unclosedMap s
termination_by (ts.length, 0)

/-- The value of a map entry. A bare name without one reads the property
of that name. -/
def entryValue (key : MapKey) (ts : List Item) : Except ExprError (Trailing Expr ts) :=
  match ts with
  | ⟨.mark .colon, _⟩ :: r => do
      let ⟨e, s, h⟩ ← pipe r
      return ⟨e, s, by simp only [List.length_cons]; omega⟩
  | ts =>
      if key.quoted then fail stop .missingMapColon ts
      else return ⟨.property .context key.name, ts, Nat.le_refl _⟩
termination_by (ts.length, 0)

end

/-- The expression of a whole token list; no tokens are the empty
expression. -/
def whole (ts : List Item) : Except ExprError Expr :=
  match ts with
  | [] => return .empty
  | t :: r => do
      let ⟨e, s, _⟩ ← pipe stop (t :: r)
      match s with
      | [] => return e
      | u :: v => fail stop (.unexpectedToken (shown u)) (u :: v)

end Grammar

end KeyHarvest
