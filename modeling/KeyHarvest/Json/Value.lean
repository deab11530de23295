/-
JSON as it is written in reports: texts, natural numbers, lists and
objects. Members keep their order, a blank follows every comma and colon,
and only what must be escaped is: the quote, the backslash and the control
characters below the space.
-/
import KeyHarvest.Text.Basic

namespace KeyHarvest.Json

/-- A JSON value of the kinds that reports need. -/
inductive Value where
  | text (t : Text)
  | number (n : Nat)
  | list (items : List Value)
  | object (members : List (Text × Value))

/-- The hexadecimal digit of a number below sixteen. -/
def hexDigit (n : Nat) : CodePoint := Nat.digitChar n

/-- The spelling of a code point inside quotes. -/
def escaped (c : CodePoint) : Text :=
  if c = '"' then "\\\""
  else if c = '\\' then "\\\\"
  else if c = '\n' then "\\n"
  else if c = '\r' then "\\r"
  else if c = '\t' then "\\t"
  else if c.val = 8 then "\\b"
  else if c.val = 12 then "\\f"
  else if c.val < 0x20 then "\\u00" ++ [hexDigit (c.val / 16), hexDigit (c.val % 16)]
  else [c]

/-- A text between quotes. -/
def quote (t : Text) : Text := "\"" ++ t.flatMap escaped ++ "\""

mutual

/-- The spelling of a value. -/
def render : Value → Text
  | .text t => quote t
  | .number n => Text.ofNat n
  | .list items => "[" ++ Text.join ", " (renderItems items) ++ "]"
  | .object members => "\x7b" ++ Text.join ", " (renderMembers members) ++ "\x7d"

/-- The spellings of values. -/
def renderItems : List Value → List Text
  | [] => []
  | v :: vs => render v :: renderItems vs

/-- The spellings of members with their names. -/
def renderMembers : List (Text × Value) → List Text
  | [] => []
  | (name, v) :: ms => (quote name ++ ": " ++ render v) :: renderMembers ms

end

end KeyHarvest.Json
