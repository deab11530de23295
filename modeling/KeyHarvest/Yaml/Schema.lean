/-
The values of plain scalars. What a plain text denotes follows from its
shape alone: null, a truth value, a number or a point in time, and
otherwise the text itself. A shape is a sequence of runs, each a number of
code points of one class, and no run can take what the next one needs.
-/
import KeyHarvest.Text.Digit
import KeyHarvest.Yaml.Fault
import KeyHarvest.Yaml.Value

namespace KeyHarvest.Yaml

-- ============================================================ shapes

/-- A run of code points of one class; without an upper bound it takes all
there are. -/
structure Run where
  holds : CodePoint → Bool
  least : Nat
  most : Option Nat

namespace Run

/-- One of the given characters. -/
def oneOf (s : String) : Run := ⟨fun c => (Text.ofString s).contains c, 1, some 1⟩

/-- One of the given characters, or nothing. -/
def maybe (s : String) : Run := { oneOf s with least := 0 }

/-- Any number of the given characters, but at least so many. -/
def many (s : String) (least : Nat) : Run := { oneOf s with least := least, most := none }

/-- Digits, from so many to so many. -/
def digits (least most : Nat) : Run := { oneOf "0123456789" with least := least, most := some most }

/-- What a run leaves of a text, if it finds enough. -/
def rest? (r : Run) (t : Text) : Option Text :=
  let found := (t.takeWhile r.holds).length
  let taken := match r.most with
    | some n => min n found
    | none => found
  if r.least ≤ taken then some (t.drop taken) else none

end Run

/-- Whether a text has the shape of a sequence of runs. -/
def hasShape (runs : List Run) (t : Text) : Bool :=
  runs.foldlM (fun t r => r.rest? t) t = some []

/-- All ways of following one of the first shapes by one of the second. -/
def followedBy (as bs : List (List Run)) : List (List Run) :=
  as.flatMap fun a => bs.map (a ++ ·)

/-- The shapes of integers: binary, octal, hexadecimal and decimal. -/
def integerShapes : List (List Run) :=
  [[.maybe "+-", .oneOf "0", .oneOf "b", .many "01_" 1],
   [.maybe "+-", .oneOf "0", .maybe "o", .many "01234567_" 1],
   [.oneOf "+-", .many "0123456789_" 1],
   [.digits 1 1, .many "0123456789_" 0],
   [.maybe "+-", .oneOf "0", .oneOf "x", .many "0123456789abcdefABCDEF_" 1]]

/-- The shape of an exponent. -/
def exponentShape : List Run := [.oneOf "eE", .maybe "+-", .many "0123456789" 1]

/-- The shapes of numbers with a point or an exponent. -/
def floatShapes : List (List Run) :=
  followedBy [[.maybe "+-", .digits 1 1, .many "0123456789_" 0, .oneOf ".", .many "0123456789_" 0]]
      [[], exponentShape]
    ++ [[.maybe "+-", .digits 1 1, .many "0123456789_" 0] ++ exponentShape]
    ++ followedBy [[.maybe "+-", .oneOf ".", .many "0123456789_" 1]]
      [[], [.oneOf "eE", .oneOf "+-", .many "0123456789" 1]]

/-- The shape of a date of fixed width. -/
def dateShape : List Run :=
  [.digits 4 4, .oneOf "-", .digits 2 2, .oneOf "-", .digits 2 2]

/-- The shapes of a date with a time of day, and perhaps a zone. -/
def momentShapes : List (List Run) :=
  followedBy
    (followedBy
      (followedBy [[.digits 4 4, .oneOf "-", .digits 1 2, .oneOf "-", .digits 1 2]]
        [[.oneOf "Tt"], [.many " \t" 1]])
      (followedBy [[.digits 1 2, .oneOf ":", .digits 2 2, .oneOf ":", .digits 2 2]]
        [[], [.oneOf ".", .many "0123456789" 0]]))
    [[], [.many " \t" 0, .oneOf "Z"], [.many " \t" 0, .oneOf "+-", .digits 1 2],
     [.many " \t" 0, .oneOf "+-", .digits 1 2, .oneOf ":", .digits 2 2]]

-- ========================================================== numbers

/-- The text without the underscores that group digits. -/
def ungrouped (t : Text) : Text := t.filter fun (c : CodePoint) => c ≠ '_'

/-- The text without its sign. -/
def unsigned (t : Text) : Text :=
  if Text.starts '-' t || Text.starts '+' t then t.drop 1 else t

/-- The number that digits of a base denote. -/
def digitsIn (base : Nat) (t : Text) : Nat :=
  t.foldl (fun n c => base * n + c.hexValue?.getD 0) 0

/-- The base and the digits of an integer without sign and underscores. -/
def baseAndDigits (t : Text) : Nat × Text :=
  match Text.after? "0b" t, Text.after? "0x" t, Text.after? "0o" t with
  | some ds, _, _ => (2, ds)
  | none, some ds, _ => (16, ds)
  | none, none, some ds => (8, ds)
  | none, none, none => (10, t)

/-- The integer that a text of such a shape denotes. -/
def integerOf (t : Text) : Int :=
  let (base, ds) := baseAndDigits (ungrouped (unsigned t))
  if Text.starts '-' t then -(digitsIn base ds : Int) else digitsIn base ds

/-- The value of a text with the shape of an integer. Underscores alone are
no digits, and there may be too many decimal ones. -/
def integer (t : Text) : Value :=
  let (base, ds) := baseAndDigits (ungrouped (unsigned t))
  if ds.isEmpty then .invalid (.impossible (.noDigits base))
  else if base = 10 ∧ maxIntegerDigits < ds.length then
    .invalid (.impossible (.oversized ds.length))
  else .int (integerOf t)

/-- The size of the number that a text with a point or an exponent
denotes. -/
def floatSize (t : Text) : Binary64 :=
  let mantissa := t.takeWhile fun (c : CodePoint) => c ≠ 'e' && c ≠ 'E'
  let exponent := integerOf (t.drop (mantissa.length + 1))
  let fraction := (mantissa.dropWhile fun (c : CodePoint) => c ≠ '.').drop 1
  .ofDecimal (digitsIn 10 (mantissa.filter CodePoint.isAsciiDigit))
    (exponent - fraction.length)

/-- The value of a text with the shape of a number with a point or an
exponent. A point between underscores is none. -/
def float (t : Text) : Value :=
  let body := ungrouped (unsigned t)
  let mantissa := body.takeWhile fun (c : CodePoint) => c ≠ 'e' && c ≠ 'E'
  if mantissa.any CodePoint.isAsciiDigit then .float (Text.starts '-' t) (floatSize body)
  else
    let shown : Text := body.map fun (c : CodePoint) => if c = 'E' then 'e' else c
    .invalid (.impossible (.noNumber shown))

-- ============================================================== times

/-- The numbers in a text: its runs of digits in order. -/
def numbersIn : Text → List Nat
  | [] => []
  | c :: cs =>
      let run := (c :: cs).takeWhile CodePoint.isAsciiDigit
      if run.isEmpty then numbersIn cs else digitsIn 10 run :: numbersIn (cs.drop (run.length - 1))
termination_by t => t.length
decreasing_by all_goals (simp only [List.length_cons, List.length_drop]; omega)

/-- Whether a year has a day more. -/
def isLeap (year : Nat) : Bool := year % 4 = 0 && (year % 100 ≠ 0 || year % 400 = 0)

/-- The days of a month. -/
def daysIn (year month : Nat) : Nat :=
  if month = 2 then (if isLeap year then 29 else 28)
  else if [4, 6, 9, 11].contains month then 30
  else 31

/-- What is wrong with a date. -/
def dateFault? (year month day : Nat) : Option Impossible :=
  if year = 0 then some .year
  else if month < 1 ∨ 12 < month then some .month
  else if day < 1 ∨ daysIn year month < day then some .day
  else none

/-- What is wrong with a time of day. -/
def clockFault? (hour minute second : Nat) : Option Impossible :=
  if 23 < hour then some .hour
  else if 59 < minute then some .minute
  else if 59 < second then some .second
  else none

/-- What is wrong with the numbers of a point in time. -/
def timeFault? : List Nat → Option Impossible
  | year :: month :: day :: hour :: minute :: second :: _ =>
      dateFault? year month day <|> clockFault? hour minute second
  | year :: month :: day :: _ => dateFault? year month day
  | _ => none

/-- The value of a text with the shape of a point in time. -/
def time (dateOnly : Bool) (t : Text) : Value :=
  match timeFault? (numbersIn t) with
  | some reason => .invalid (.impossible reason)
  | none => .time dateOnly t

-- ======================================================== resolution

/-- The value of a plain scalar. A lone equals sign is reserved and has
none; two angle brackets ask for a mapping to be merged, which is outside
the format. -/
def resolve (t : Text) : Value :=
  if Text.isOneOf ["", "~", "null", "Null", "NULL"] t then .null
  else if Text.isOneOf ["true", "True", "TRUE"] t then .bool true
  else if Text.isOneOf ["false", "False", "FALSE"] t then .bool false
  else if Text.isOneOf [".nan", ".NaN", ".NAN"] t then .nan
  else if Text.isOneOf [".inf", ".Inf", ".INF"] (unsigned t) then
    .float (Text.starts '-' t) .infinite
  else if floatShapes.any (hasShape · t) then float t
  else if integerShapes.any (hasShape · t) then integer t
  else if hasShape dateShape t then time true t
  else if momentShapes.any (hasShape · t) then time false t
  else if Text.isOneOf ["="] t then .invalid .unresolvable
  else if Text.isOneOf ["<<"] t then .invalid .unsupported
  else .text t

end KeyHarvest.Yaml
