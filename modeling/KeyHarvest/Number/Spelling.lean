/-
How numbers are written. A floating-point number has its shortest digits
and the exponent of the first of them; a `Layout` says for which exponents
these are written positionally and what the other form looks like.

Two layouts are in use. Values and messages keep a fraction on every
number (`1.0`, `1e-05`, `1e+16`). A number used as a key is written the
way a template author reads it: an integral number below 10^21 in full,
and exponents only beyond the seventh place (`1`, `0.00001`, `1e-7`,
`1e+21`).
-/
import KeyHarvest.Number.Binary64
import KeyHarvest.Text.Digit

namespace KeyHarvest

-- ============================================================ layouts

/-- The decisions of a number format: exponents from `least` to `greatest`
are written positionally, and an exponent has at least `width` digits. -/
structure Layout where
  least : Int
  greatest : Int
  width : Nat

namespace Layout

/-- A run of zeros. -/
def zeros (n : Nat) : Text := List.replicate n '0'

/-- A point set after the first `before` digits, with a fraction always. -/
def positional (digits : Text) (lead : Int) : Text :=
  if lead < 0 then
    "0." ++ zeros (-lead - 1).toNat ++ digits
  else
    let before := lead.toNat + 1
    let padded := digits ++ zeros (before - digits.length)
    let fraction := padded.drop before
    padded.take before ++ "." ++ if fraction.isEmpty then zeros 1 else fraction

/-- One digit, the others as a fraction if there are any, and the
exponent with its sign. -/
def scientific (width : Nat) (digits : Text) (lead : Int) : Text :=
  let fraction := digits.drop 1
  let point : Text := if fraction.isEmpty then [] else ['.']
  let mark : Text := if lead < 0 then ['e', '-'] else ['e', '+']
  let exponent := Text.ofNat lead.natAbs
  digits.take 1 ++ point ++ fraction ++ mark ++ zeros (width - exponent.length) ++ exponent

/-- A decimal in a layout. -/
def write (l : Layout) (d : Binary64.Decimal) : Text :=
  let digits := Text.ofNat d.digits
  let lead : Int := d.exponent + (digits.length - 1 : Nat)
  if l.least ≤ lead ∧ lead ≤ l.greatest then positional digits lead
  else scientific l.width digits lead

end Layout

/-- Values keep a fraction, and two digits in an exponent. -/
def valueLayout : Layout := ⟨-4, 15, 2⟩

/-- Keys spell small numbers out to the seventh place. -/
def keyLayout : Layout := ⟨-6, 15, 1⟩

-- ============================================================ numbers

/-- The number of a literal: without point and exponent it is exact. -/
inductive Number where
  | integer (n : Nat)
  | float (x : Binary64)
  deriving DecidableEq, Repr

namespace Binary64

/-- The text of a floating-point number in a layout. -/
def spell (l : Layout) : Binary64 → Text
  | .infinite => ['i', 'n', 'f']
  | .finite m q => l.write (shortest m q)

/-- The natural number that a floating-point number is, if it is one. -/
def toNat? : Binary64 → Option Nat
  | .infinite => none
  | .finite m q =>
      if m * pow2 q % pow2 (-q) = 0 then some (m * pow2 q / pow2 (-q))
      else none

end Binary64

namespace Number

/-- A number as values and messages show it. -/
def text : Number → Text
  | .integer n => .ofNat n
  | .float x => x.spell valueLayout

/-- A number as a key: integral numbers below 10^21 in full. -/
def keyText : Number → Text
  | .integer n => .ofNat n
  | .float x =>
      match x.toNat? with
      | some n => if n < Binary64.pow10 21 then .ofNat n else x.spell keyLayout
      | none => x.spell keyLayout

end Number

end KeyHarvest
