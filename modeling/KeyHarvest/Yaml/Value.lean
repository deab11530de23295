/-
Values of a configuration document: scalars, lists and mappings. A key of
a mapping may be any value, though a mapping is never a key of another.
Numbers of all kinds are the same key when they are equal, and a truth
value counts as zero or one.
-/
import KeyHarvest.Number.Binary64
import KeyHarvest.Yaml.Fault

namespace KeyHarvest.Yaml

/-- A value. A point in time is a date, or a date with a time of day, and
is kept as it is written. What only an explicit tag or an alias can ask for
(bytes, a set, a collection inside itself) is kept as its kind, and whether
it is empty. A scalar that only looks like a value is kept with what is
wrong with it. -/
inductive Value where
  | null
  | bool (b : Bool)
  | int (n : Int)
  | float (negative : Bool) (magnitude : Binary64)
  | nan
  | time (dateOnly : Bool) (spelling : Text)
  | text (t : Text)
  | list (items : List Value)
  | map (entries : List (Value × Value))
  | object (kind : Text) (isEmpty : Bool)
  | invalid (fault : Fault)
  deriving Inhabited

namespace Value

/-- Whether a value holds nothing: null, false, zero, and what is empty. -/
def isVoid : Value → Bool
  | .null => true
  | .bool b => !b
  | .int n => n = 0
  | .float _ (.finite 0 _) => true
  | .text t => t.isEmpty
  | .list items => items.isEmpty
  | .map entries => entries.isEmpty
  | .object _ isEmpty => isEmpty
  | _ => false

/-- The name of the kind of a value. -/
def kind : Value → Text
  | .null => "NoneType"
  | .bool _ => "bool"
  | .int _ => "int"
  | .float _ _ => "float"
  | .nan => "float"
  | .time true _ => "datetime.date"
  | .time false _ => "datetime.datetime"
  | .text _ => "str"
  | .list _ => "tuple"
  | .map _ => "dict"
  | .object kind _ => kind
  | .invalid _ => "object"

/-- The text of a text value. -/
def text? : Value → Option Text
  | .text t => some t
  | _ => none

/-- The texts of a list of texts; a text alone is a list of one. -/
def texts? : Value → Option (List Text)
  | .text t => some [t]
  | .list items => items.mapM text?
  | _ => none

/-- The value of a mapping under a key that is a text. -/
def lookup? (name : Text) (entries : List (Value × Value)) : Option Value :=
  (entries.find? fun e => e.1.text? = some name).map Prod.snd

-- =============================================================== keys

/-- A finite number as a significand times a power of two. -/
def number? : Value → Option (Int × Int)
  | .bool b => some (if b then 1 else 0, 0)
  | .int n => some (n, 0)
  | .float negative (.finite m e) => some (if negative then -(m : Int) else m, e)
  | _ => none

/-- Whether two numbers are equal. -/
def sameNumber (a b : Int × Int) : Bool :=
  a.1 * Binary64.pow2 (a.2 - b.2) = b.1 * Binary64.pow2 (b.2 - a.2)

mutual

/-- Whether two values are the same key. Mappings are no keys. -/
def sameKey : Value → Value → Bool
  | .null, .null => true
  | .nan, .nan => true
  | .float s .infinite, .float t .infinite => s = t
  | .time a s, .time b t => a = b && s = t
  | .text a, .text b => a = b
  | .list as, .list bs => sameKeys as bs
  | a, b =>
      match a.number?, b.number? with
      | some x, some y => sameNumber x y
      | _, _ => false

/-- Whether two lists are the same key. -/
def sameKeys : List Value → List Value → Bool
  | [], [] => true
  | a :: as, b :: bs => sameKey a b && sameKeys as bs
  | _, _ => false

end

-- ============================================================= order

/-- Whether a value is a number; a truth value is one. -/
def isNumber : Value → Bool
  | .bool _ | .int _ | .float _ _ | .nan => true
  | _ => false

/-- Whether a value is a number below another one. -/
def isBelow : Value → Value → Bool
  | .float true .infinite, .float negative .infinite => !negative
  | .float true .infinite, b => b.number?.isSome
  | a, .float false .infinite => a.number?.isSome
  | a, b =>
      match a.number?, b.number? with
      | some x, some y => x.1 * Binary64.pow2 (x.2 - y.2) < y.1 * Binary64.pow2 (y.2 - x.2)
      | _, _ => false

/-- The first of several keys that have an order. Only of numbers the first
one need not be of the same kind as the others, so no other keys are
compared. -/
def first (k : Value) (ks : List Value) : Value :=
  ks.foldl (fun least k => if k.isBelow least then k else least) k

mutual

/-- The kinds of two different keys between which there is no order. Two
lists have none if there is none between the first items that differ. -/
def clash? : Value → Value → Option (Text × Text)
  | .list as, .list bs => clashes? as bs
  | .text _, .text _ => none
  | .time a s, .time b t => if a = b then none else some ((Value.time a s).kind, (Value.time b t).kind)
  | .object a s, .object b t => if a = b then none else some ((Value.object a s).kind, (Value.object b t).kind)
  | a, b => if a.isNumber && b.isNumber then none else some (a.kind, b.kind)

/-- The kinds of the first different items of two lists, if there is no
order between them. -/
def clashes? : List Value → List Value → Option (Text × Text)
  | a :: as, b :: bs => if sameKey a b then clashes? as bs else clash? a b
  | _, _ => none

end

/-- The kinds of two among several keys between which there is no order,
the later key first. -/
def clashAmong? : List Value → Option (Text × Text)
  | [] => none
  | k :: ks => (ks.findSome? fun l => l.clash? k).or (clashAmong? ks)

-- ============================================================= faults

mutual

/-- The first fault of a scalar inside a value. -/
def fault? : Value → Option Fault
  | .invalid fault => some fault
  | .list items => listFault? items
  | .map entries => entriesFault? entries
  | _ => none

/-- The first fault among values. -/
def listFault? : List Value → Option Fault
  | [] => none
  | v :: vs => fault? v <|> listFault? vs

/-- The first fault among entries. -/
def entriesFault? : List (Value × Value) → Option Fault
  | [] => none
  | (k, v) :: es => fault? k <|> fault? v <|> entriesFault? es

end

end Value

end KeyHarvest.Yaml
