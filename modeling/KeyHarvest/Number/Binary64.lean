/-
Non-negative binary floating-point numbers of 64 bits, kept exactly: a
finite number is a natural significand times a power of two. A literal
with a point or an exponent denotes the number nearest to it, ties going
to the even significand, and one beyond the largest number denotes
infinity.

`ofDecimal` reads `n · 10^e`. `shortest` is its other direction: the
fewest decimal digits that lie in the interval of reals that round to the
number, and of those the digits nearest to it. All arithmetic is on
natural numbers, so nothing is lost on the way.
-/

namespace KeyHarvest

/-- A non-negative number `significand · 2^exponent`, or one too large to
be written so. -/
inductive Binary64 where
  | finite (significand : Nat) (exponent : Int)
  | infinite
  deriving DecidableEq, Repr

namespace Binary64

/-- The number of decimal digits of a natural number; zero has one. -/
def digitCount (n : Nat) : Nat := (Nat.toDigits 10 n).length

/-- Two to a power; a negative power counts as none. -/
def pow2 (k : Int) : Nat := Nat.pow 2 k.toNat

/-- Ten to a power; a negative power counts as none. -/
def pow10 (k : Int) : Nat := Nat.pow 10 k.toNat

/-- The quotient rounded to nearest, a tie to the even neighbour. -/
def roundDiv (num den : Nat) : Nat :=
  let q := num / den
  let r := num % den
  if 2 * r < den then q
  else if den < 2 * r then q + 1
  else if q % 2 = 0 then q else q + 1

/-- Zero. -/
def zero : Binary64 := .finite 0 (-1074)

/-- The exponent of the leading bit of a positive fraction. -/
def leadingBit (num den : Nat) : Int :=
  let k : Int := (Nat.log2 num : Int) - (Nat.log2 den : Int)
  if den * pow2 k ≤ num * pow2 (-k) then k else k - 1

/-- The number nearest to a positive fraction. -/
def ofFraction (num den : Nat) : Binary64 :=
  let q := max (leadingBit num den - 52) (-1074)
  let m := roundDiv (num * pow2 (-q)) (den * pow2 q)
  let (m, q) := if m = pow2 53 then (pow2 52, q + 1) else (m, q)
  if 971 < q then .infinite else .finite m q

/-- The number nearest to `n · 10^e`. Far outside the range of the type
the power of ten is not formed. -/
def ofDecimal (n : Nat) (e : Int) : Binary64 :=
  let size : Int := digitCount n + e
  if n = 0 || size < -330 then zero
  else if 310 < size then .infinite
  else ofFraction (n * pow10 e) (pow10 (-e))

-- =================================================== shortest decimals

/-- A decimal `digits · 10^exponent`. -/
structure Decimal where
  digits : Nat
  exponent : Int
  deriving DecidableEq, Repr

namespace Decimal

/-- The same decimal without zeros at the end of its digits. -/
def strip (d : Decimal) : Decimal :=
  if h : d.digits ≠ 0 ∧ d.digits % 10 = 0 then
    strip ⟨d.digits / 10, d.exponent + 1⟩
  else d
termination_by d.digits
decreasing_by
  have := h.1
  omega

end Decimal

/-- The exponent of the leading decimal digit of `m · 2^q`, for a positive
`m` in the range of the type. -/
def leadingDigit (m : Nat) (q : Int) : Int :=
  (digitCount (m * pow2 q * pow10 350 / pow2 (-q)) : Int) - 351

/-- Four times the ends of the interval of reals that round to `m · 2^q`,
in units of `2^q`: half a unit on either side, and a quarter below where
the spacing narrows. -/
def interval (m : Nat) (q : Int) : Nat × Nat :=
  (4 * m - (if m = pow2 52 ∧ -1074 < q then 1 else 2), 4 * m + 2)

/-- Whether a decimal rounds to `m · 2^q`; the ends of the interval belong
to it when the significand is even. -/
def reads (m : Nat) (q : Int) (d : Decimal) : Bool :=
  let (low, high) := interval m q
  let scale := pow2 q * pow10 (-d.exponent)
  let x := 4 * d.digits * pow10 d.exponent * pow2 (-q)
  if m % 2 = 0 then low * scale ≤ x && x ≤ high * scale
  else low * scale < x && x < high * scale

/-- The best decimal of `count` digits, when one rounds to `m · 2^q`: the
nearer of the two neighbours on the decimal grid, and the even one of two
equally near. -/
def candidate (m : Nat) (q : Int) (count : Nat) : Option Decimal :=
  let s := leadingDigit m q - (count - 1)
  let num := m * pow2 q * pow10 (-s)
  let den := pow2 (-q) * pow10 s
  let below : Decimal := ⟨num / den, s⟩
  let above : Decimal := ⟨num / den + 1, s⟩
  if reads m q below && reads m q above then some ⟨roundDiv num den, s⟩
  else if reads m q below then some below
  else if reads m q above then some above
  else none

/-- The fewest digits that read back as `m · 2^q`. Seventeen suffice, so
the full expansion of the last case is never needed. -/
def shortest (m : Nat) (q : Int) : Decimal :=
  if m = 0 then ⟨0, 0⟩
  else
    match (List.range 17).findSome? fun i => candidate m q (i + 1) with
    | some d => d.strip
    | none => ⟨m * pow2 q * Nat.pow 5 (-q).toNat, min q 0⟩

end Binary64

end KeyHarvest
