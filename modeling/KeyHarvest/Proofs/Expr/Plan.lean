/-
The rules of the reader, step by step. A rule looks at the desk, moves past
a token, asks for another rule, or has a text of its own read; what it does
next depends on what it sees and gets. A `Plan` is this tree of steps, with
the rules that are asked for left open.

`Rule.plan` is the plan of each rule. It is no second reader: a plan that
is carried out, its questions answered by the reader itself, is the rule
(`Rule.read_eq`). What the plans add are the moments between the steps,
which the outcome of a run does not show.
-/
import KeyHarvest.Expr.Session

namespace KeyHarvest

-- =============================================================== plans

/-- The steps of a rule up to its value. -/
inductive Plan (α : Type) : Type 1 where
  /-- The value is there. -/
  | give (a : α)
  /-- It is refused. -/
  | fail (e : ExprError)
  /-- A look at the desk. -/
  | look (k : Desk → Plan α)
  /-- A step past the next token. -/
  | advance (k : Plan α)
  /-- What another rule reads from here. -/
  | ask {β : Type} (r : Rule β) (k : β → Plan α)
  /-- The expression of a text of its own, on a desk of its own. -/
  | text (t : Text) (offset : Nat) (k : Expr → Plan α)

namespace Plan

variable {α β : Type}

/-- A plan and what comes after it. -/
def bind : Plan α → (α → Plan β) → Plan β
  | give a, f => f a
  | fail e, _ => fail e
  | look k, f => look fun d => (k d).bind f
  | advance k, f => advance (k.bind f)
  | ask r k, f => ask r fun b => (k b).bind f
  | text t offset k, f => text t offset fun e => (k e).bind f

instance : Monad Plan where
  pure := give
  bind := bind

/-- What a rule reads. -/
def of (r : Rule α) : Plan α := ask r give

/-- The next token. -/
def current : Plan Slot := look fun d => give d.current

/-- Past the next token. -/
def step : Plan Unit := advance (give ())

/-- The refusal at the next token. -/
def refuse (fault : ExprFault) : Plan α := look fun d => fail (.malformed fault d.place)

/-- Past the next token when it is the given one. -/
def accept (sign : Sign) : Plan Bool := do
  if (← current).kind.any sign.isAt then
    step
    return true
  else return false

/-- The name that comes next. -/
def name (fault : ExprFault) : Plan Text := do
  match (← current).kind.bind ReadM.nameOf? with
  | some n => do
      step
      return n
  | none => refuse fault

/-- What has been computed without the desk. -/
def ofExcept : Except ExprError α → Plan α
  | .ok a => give a
  | .error e => fail e

end Plan

-- ============================================================ the rules

namespace Rule

open Plan

/-- The plan of a rule. -/
def plan : {α : Type} → Rule α → Plan α
  | _, pipe => do
      let input ← of cond
      of (pipeTail input)
  | _, pipeTail input => do
      if ← accept (.operator .bar) then
        let n ← name .missingPipeName
        let args ← of (pipeArgs [])
        of (pipeTail (.pipe input n args))
      else return input
  | _, pipeArgs args => do
      if ← accept (.mark .colon) then
        let e ← of cond
        of (pipeArgs (args ++ [e]))
      else return args
  | _, cond => do
      let test ← of (binary BinaryOp.loosest)
      if ← accept (.operator .question) then
        let yes ← of pipe
        if ← accept (.mark .colon) then
          let no ← of pipe
          return .conditional test yes no
        else refuse .missingAlternative
      else return test
  | _, binary 0 => of power
  | _, binary (level + 1) => do
      let left ← of (binary level)
      of (binaryTail level left)
  | _, binaryTail level left => do
      match (← current).kind with
      | some (.operator (.binary op)) =>
          if op.level = level + 1 then
            step
            let right ← of (binary level)
            of (binaryTail level (.binary op left right))
          else return left
      | _ => return left
  | _, power => do
      let base ← of unary
      if ← accept (.operator (.binary .pow)) then
        let exponent ← of power
        return .binary .pow base exponent
      else return base
  | _, unary => do
      if ← accept (.operator .bang) then return .not (← of unary)
      else if ← accept (.operator (.binary .sub)) then return .unary .minus (← of unary)
      else if ← accept (.operator (.binary .add)) then return .unary .plus (← of unary)
      else if ← accept (.keyword .typeof) then return .typeof (← of unary)
      else if ← accept (.keyword .void) then return .unary .void (← of unary)
      else of access
  | _, access => do
      let receiver ← of primary
      of (accessTail receiver)
  | _, accessTail receiver => do
      if ← accept (.mark .dot) then
        let n ← name .missingPropertyName
        of (accessTail (.property receiver n))
      else if ← accept (.operator .optional) then
        if ← accept (.mark .openBracket) then
          let key ← of keyTail
          of (accessTail (.safeIndex receiver key))
        else if ← accept (.mark .openParen) then
          let args ← of (sequence .closeParen)
          of (accessTail (.safeCall receiver args))
        else
          let n ← name .missingSafePropertyName
          of (accessTail (.safeProperty receiver n))
      else if ← accept (.mark .openBracket) then
        let key ← of keyTail
        of (accessTail (.index receiver key))
      else if ← accept (.mark .openParen) then
        let args ← of (sequence .closeParen)
        of (accessTail (.call receiver args))
      else if ← accept (.operator .bang) then of (accessTail (.assertion receiver))
      else return receiver
  | _, keyTail => do
      let key ← of pipe
      if ← accept (.mark .closeBracket) then return key
      else refuse .unclosedIndex
  | _, primary => do
      let t ← current
      match t.kind with
      | none => refuse .unexpectedEnd
      | some (.mark .openParen) => do
          step
          let e ← of pipe
          if ← accept (.mark .closeParen) then return e
          else refuse .unclosedGroup
      | some (.keyword word) => do
          step
          match word with
          | .null => return .literal .null
          | .undefined => return .literal .undefined
          | .true => return .literal (.bool true)
          | .false => return .literal (.bool false)
          | .this => return .this
          | word => look fun d => fail (.malformed (.unexpectedKeyword word) (d.offset + t.position))
      | some (.text value) => do
          step
          return .literal (.text value)
      | some (.number value) => do
          step
          return .literal (.number value)
      | some (.template raw) => do
          step
          look fun d => of (template raw (d.offset + t.position + 1))
      | some (.mark .openBracket) => do
          step
          return .array (← of (sequence .closeBracket))
      | some (.mark .openBrace) => do
          step
          let (keys, values) ← of mapBody
          return .map keys values
      | some (.name n) => do
          step
          return .property .context n
      | some k => refuse (.unexpectedToken (k.shown id))
  | _, sequence closer => do
      if ← accept (.mark closer) then return []
      else of (items closer [])
  | _, items closer before => do
      let e ← of pipe
      if ← accept (.mark .comma) then of (items closer (before ++ [e]))
      else if ← accept (.mark closer) then return before ++ [e]
      else refuse (.unclosedSequence closer)
  | _, mapBody => do
      if ← accept (.mark .closeBrace) then return ([], [])
      else of (entries [] [])
  | _, entries keys values => do
      match (← current).kind.bind ReadM.mapKeyOf? with
      | none => refuse .missingMapKey
      | some key => do
          step
          let value ← of (entryValue key)
          if ← accept (.mark .comma) then of (entries (keys ++ [key]) (values ++ [value]))
          else if ← accept (.mark .closeBrace) then return (keys ++ [key], values ++ [value])
          else refuse .unclosedMap
  | _, entryValue key => do
      if ← accept (.mark .colon) then of pipe
      else if key.quoted then refuse .missingMapColon
      else return .property .context key.name
  | _, template raw start => do
      let es ← of (substitutions start (BacktickBody.split 0 raw).parts)
      ofExcept (Expr.ofBody start (BacktickBody.split 0 raw) es)
  | _, substitutions _ [] => return []
  | _, substitutions start (part :: parts) => do
      let e ← of (standalone part.code (start + part.offset))
      let es ← of (substitutions start parts)
      return e :: es
  | _, whole => do
      match (← current).kind with
      | none => return .empty
      | some _ => do
          let e ← of pipe
          match (← current).kind with
          | none => return e
          | some k => refuse (.unexpectedToken (k.shown id))
  | _, standalone t offset => text t offset give

end Rule

-- =========================================================== carried out

namespace Plan

variable {α β : Type}

/-- A plan that is carried out. A text of its own is read on a desk of its
own, and the desk that was put aside is taken up again, whatever comes of
it. -/
def run : Plan α → ReadM α
  | give a => return a
  | fail e => throw e
  | look k => do (k (← get)).run
  | advance k => do
      ReadM.advance
      k.run
  | ask r k => do (k (← r.read)).run
  | text t offset k => do
      let e ← (show StateT Desk Option (Except ExprError Expr) from do
        let saved ← get
        let outcome ← (do ReadM.begin t offset; Rule.whole.read : ReadM Expr).run
        set saved
        return outcome : ReadM Expr)
      (k e).run

theorem run_pure (a : α) : (pure a : Plan α).run = pure a := rfl

/-- A plan that goes on runs like its two parts. -/
theorem run_bind (p : Plan α) (f : α → Plan β) : (p >>= f).run = p.run >>= fun a => (f a).run := by
  show (p.bind f).run = _
  induction p with
  | give a => exact (pure_bind (m := ReadM) a fun a => (f a).run).symm
  | fail e => rfl
  | look k ih =>
      simp only [bind, run, bind_assoc]
      exact congrArg _ (funext ih)
  | advance k ih => simp only [bind, run, bind_assoc, ih]
  | ask r k ih =>
      simp only [bind, run, bind_assoc]
      exact congrArg _ (funext ih)
  | text t offset k ih =>
      simp only [bind, run, bind_assoc]
      exact congrArg _ (funext ih)

/-- Asking for a rule runs the rule. -/
theorem run_of (r : Rule α) : (of r).run = r.read := bind_pure r.read

theorem run_current : current.run = ReadM.current := rfl

theorem run_step : step.run = ReadM.advance := bind_pure ReadM.advance

/-- Looking runs on from what is seen. -/
theorem run_look (k : Desk → Plan α) : (look k).run = get >>= fun d => (k d).run := rfl

theorem run_refuse (fault : ExprFault) : (refuse fault : Plan α).run = ReadM.refuse fault := rfl

/-- A sign is asked for as the reader does. -/
theorem run_accept (sign : Sign) : (accept sign).run = ReadM.accept sign := by
  unfold accept ReadM.accept
  rw [run_bind, run_current]
  refine congrArg _ (funext fun s => ?_)
  split
  · rw [run_bind, run_step]
    rfl
  · rfl

/-- A name is asked for as the reader does. -/
theorem run_name (fault : ExprFault) : (name fault).run = ReadM.name fault := by
  unfold name ReadM.name
  rw [run_bind, run_current]
  refine congrArg _ (funext fun s => ?_)
  cases s.kind.bind ReadM.nameOf? with
  | none => rfl
  | some n =>
      show (step >>= fun _ => pure n).run = _
      rw [run_bind, run_step]
      rfl

/-- A result is taken over as it is. -/
theorem run_ofExcept (x : Except ExprError α) : (ofExcept x).run = liftExcept x := by
  cases x <;> rfl

/-- A choice of plans runs the one that is chosen. -/
theorem run_ite {c : Prop} [Decidable c] (p q : Plan α) :
    (if c then p else q).run = if c then p.run else q.run := apply_ite run c p q

end Plan

namespace Rule

open Plan

/-- The reader does what its plans say. -/
theorem read_eq {α : Type} (r : Rule α) : r.read = r.plan.run := by
  cases r with
  | pipe | pipeTail | pipeArgs | cond | power | unary | access | accessTail | keyTail | sequence
  | items | mapBody | entryValue | template =>
      rw [read]
      simp only [plan, run_bind, run_of, run_accept, run_name, run_refuse, run_ite, run_pure,
        run_ofExcept]
  | binary level =>
      cases level with
      | zero => rw [read, plan, run_of]
      | succ level =>
          rw [read]
          simp only [plan, run_bind, run_of]
  | substitutions start parts =>
      cases parts with
      | nil => rw [read, plan, run_pure]
      | cons part parts =>
          rw [read]
          simp only [plan, run_bind, run_of, run_pure]
  | binaryTail level left =>
      -- what comes next depends on the sign that is looked at, hence a case for each kind of token
      rw [read]
      simp only [plan, run_bind, run_current]
      refine bind_congr fun s => ?_
      cases s.kind with
      | none => rfl
      | some k =>
          cases k with
          | operator op =>
              cases op with
              | binary op => simp only [run_bind, run_of, run_step, run_ite, run_pure]
              | _ => rfl
          | _ => rfl
  | primary =>
      rw [read]
      simp only [plan, run_bind, run_current]
      refine bind_congr fun s => ?_
      cases s.kind with
      | none => rfl
      | some k =>
          cases k with
          | keyword word =>
              simp only [run_bind, run_step]
              refine bind_congr fun _ => ?_
              cases word <;> rfl
          | mark m =>
              cases m <;>
                simp only [run_bind, run_of, run_step, run_accept, run_refuse, run_ite, run_pure]
          | template raw => simp only [run_bind, run_step, run_look, run_of]
          | text value | number value | name n => simp only [run_bind, run_step, run_pure]
          | operator op => rfl
  | entries keys values =>
      rw [read]
      simp only [plan, run_bind, run_current]
      refine bind_congr fun s => ?_
      cases s.kind.bind ReadM.mapKeyOf? with
      | none => rw [run_refuse]
      | some key =>
          simp only [run_bind, run_of, run_step, run_accept, run_refuse, run_ite, run_pure]
  | whole =>
      rw [read]
      simp only [plan, run_bind, run_current]
      refine bind_congr fun s => ?_
      cases s.kind with
      | none => rw [run_pure]
      | some k =>
          simp only [run_bind, run_of, run_current]
          refine bind_congr fun e => bind_congr fun s => ?_
          cases s.kind with
          | none => rw [run_pure]
          | some k => rw [run_refuse]
  | standalone t offset =>
      rw [read]
      exact (bind_pure (m := ReadM) _).symm

end Rule

end KeyHarvest
