/-
Flags on a command line. A flag has one or more names, and some take a
value. A long name may be cut short as long as only one name begins so,
and its value may follow an equals sign. One-letter names may be written
together behind one dash, and the value of the last may follow at once; a
letter that is no name is left over with all that follows it.
Everything behind two dashes is an operand, and so is what looks like a
negative number or holds a space.
-/
import KeyHarvest.Text.Digit
import KeyHarvest.Text.Shown

namespace KeyHarvest.Command

-- ============================================================ faults

/-- What can be wrong with arguments. -/
inductive Fault where
  | ambiguous (arg : Text) (names : List Text)
  | ignoredValue (flag value : Text)
  | missingValue (flag : Text)
  | unknownCommand (name : Text) (known : List Text)
  | missingCommand
  | unrecognized (args : List Text)
  deriving DecidableEq, Repr

/-- The wording of a fault. -/
def Fault.message : Fault → Text
  | .ambiguous arg names =>
      "ambiguous option: " ++ arg ++ " could match " ++ Text.join ", " names
  | .ignoredValue flag value =>
      "argument " ++ flag ++ ": ignored explicit argument " ++ Text.shown value
  | .missingValue flag => "argument " ++ flag ++ ": expected one argument"
  | .unknownCommand name known =>
      "argument cmd: invalid choice: " ++ Text.shown name ++ " (choose from "
        ++ Text.join ", " (known.map Text.shown) ++ ")"
  | .missingCommand => "the following arguments are required: cmd"
  | .unrecognized args => "unrecognized arguments: " ++ Text.join " " args

-- ============================================================= flags

variable {α : Type}

/-- A flag that asks for an action. -/
structure Flag (α : Type) where
  names : List Text
  takesValue : Bool
  action : α

/-- A flag as messages name it. -/
def Flag.label (f : Flag α) : Text := Text.join "/" f.names

/-- What an argument is taken for. The text behind a flag is `joined` when
it can only be a value and not more letters. -/
inductive Word (α : Type) where
  | flag (f : Flag α) (joined : Bool) (value : Option Text)
  | unknownFlag
  | separator
  | operand

/-- A name is long when it begins with two dashes. -/
def isLong (name : Text) : Bool := (Text.ofString "--").isPrefixOf name

/-- The flag of a name. -/
def flagNamed? (flags : List (Flag α)) (name : Text) : Option (Flag α) :=
  flags.find? fun f => f.names.contains name

/-- What stands before and behind the first equals sign. -/
def cutAtEquals (arg : Text) : Text × Option Text :=
  match arg.dropWhile fun (c : CodePoint) => c ≠ '=' with
  | [] => (arg, none)
  | _ :: value => (arg.takeWhile fun (c : CodePoint) => c ≠ '=', some value)

/-- The names that an argument can stand for, with the value that it then
has: those that begin like it, or its first letter alone. -/
def readings (flags : List (Flag α)) (arg : Text) : List (Text × Flag α × Option Text) :=
  (flags.flatMap fun f => f.names.map fun name => (name, f)).filterMap fun (name, f) =>
    if isLong arg then
      if (cutAtEquals arg).1.isPrefixOf name then some (name, f, (cutAtEquals arg).2) else none
    else if name = arg.take 2 then some (name, f, some (arg.drop 2))
    else if arg.isPrefixOf name then some (name, f, none)
    else none

/-- Whether an argument looks like a negative number. -/
def isNegativeNumber (arg : Text) : Bool :=
  match arg with
  | [] => false
  | dash :: t =>
      let whole := t.takeWhile CodePoint.isDigit
      let rest := t.drop whole.length
      dash = '-' && ((rest.isEmpty && !whole.isEmpty)
        || (Text.starts '.' rest && 1 < rest.length && (rest.drop 1).all CodePoint.isDigit))

/-- What an argument in front of two dashes is taken for. -/
def classify (flags : List (Flag α)) (arg : Text) : Except Fault (Word α) :=
  if !Text.starts '-' arg then .ok .operand
  else
    match flagNamed? flags arg, flagNamed? flags (cutAtEquals arg).1, readings flags arg with
    | some f, _, _ => .ok (.flag f true none)
    | none, some f, _ => .ok (.flag f true (cutAtEquals arg).2)
    | none, none, [(name, f, value)] =>
        if arg.length = 1 then .ok .operand else .ok (.flag f (isLong name) value)
    | none, none, [] =>
        if arg.length = 1 || isNegativeNumber arg || arg.contains (CodePoint.ofChar ' ') then
          .ok .operand
        else .ok .unknownFlag
    | none, none, rs =>
        if arg.length = 1 then .ok .operand else .error (.ambiguous arg (rs.map Prod.fst))

/-- What all arguments are taken for. -/
def classifyAll (flags : List (Flag α)) : List Text → Except Fault (List (Text × Word α))
  | [] => .ok []
  | arg :: args =>
      if arg = Text.ofString "--" then
        .ok ((arg, .separator) :: args.map fun a => (a, .operand))
      else do
        let word ← classify flags arg
        return (arg, word) :: (← classifyAll flags args)

-- ===================================================== values of flags

/-- The flags of one argument with their values, a last one that still
wants a value, and what is left over. -/
structure Taken (α : Type) where
  settled : List (α × Option Text)
  wanting : Option (Flag α)
  strange : List Text

/-- A flag alone: it is settled, or it wants a value. -/
def Flag.alone (f : Flag α) : Taken α :=
  if f.takesValue then ⟨[], some f, []⟩ else ⟨[(f.action, none)], none, []⟩

/-- What an argument holds, with one more flag in front. -/
def Taken.after (t : Taken α) (f : Flag α) : Taken α :=
  { t with settled := (f.action, none) :: t.settled }

/-- The flags that an argument holds whose first flag has a text behind
it: its value, or more letters. -/
def unfold (flags : List (Flag α)) (f : Flag α) (joined : Bool) :
    Text → Except Fault (Taken α)
  | [] =>
      if f.takesValue then .ok ⟨[(f.action, some [])], none, []⟩
      else .error (.ignoredValue f.label [])
  | c :: cs =>
      if f.takesValue then .ok ⟨[(f.action, some (c :: cs))], none, []⟩
      else if joined || c = '-' then .error (.ignoredValue f.label (c :: cs))
      else
        match flagNamed? flags ['-', c], cs with
        | none, cs => .ok ⟨[(f.action, none)], none, ['-' :: c :: cs]⟩
        | some g, [] => .ok (g.alone.after f)
        | some g, d :: ds => do
            let more ← if d = '=' then unfold flags g true ds else unfold flags g false (d :: ds)
            return more.after f

/-- The flags that an argument holds. -/
def take (flags : List (Flag α)) (f : Flag α) (joined : Bool) :
    Option Text → Except Fault (Taken α)
  | none => .ok f.alone
  | some value => unfold flags f joined value

end KeyHarvest.Command
