/-
Character references in text and attribute values: `&amp;`, `&#38;`,
`&#x26;`. A number outside the characters is mended or dropped the way
browsers do: the C1 controls are read as Windows-1252, surrogates and
numbers beyond Unicode become the replacement character, and controls and
noncharacters vanish. A name is taken as a whole if the standard knows it,
else the longest known beginning of it is taken and the rest stays; an
unknown name stays as it is.
-/
import KeyHarvest.Markup.CharrefNames
import KeyHarvest.Expr.Error
import KeyHarvest.Text.Digit

namespace KeyHarvest

/-- A decimal numeral with more digits than are converted. -/
structure Oversized where
  digits : Nat
  deriving DecidableEq, Repr

namespace Charref

-- ============================================================ numbers

/-- What the C1 controls, zero and the carriage return stand for. -/
def mended : List (Nat × Nat) :=
  [(0x00, 0xFFFD), (0x0D, 0x0D), (0x80, 0x20AC), (0x81, 0x81), (0x82, 0x201A), (0x83, 0x192),
   (0x84, 0x201E), (0x85, 0x2026), (0x86, 0x2020), (0x87, 0x2021), (0x88, 0x2C6), (0x89, 0x2030),
   (0x8A, 0x160), (0x8B, 0x2039), (0x8C, 0x152), (0x8D, 0x8D), (0x8E, 0x17D), (0x8F, 0x8F),
   (0x90, 0x90), (0x91, 0x2018), (0x92, 0x2019), (0x93, 0x201C), (0x94, 0x201D), (0x95, 0x2022),
   (0x96, 0x2013), (0x97, 0x2014), (0x98, 0x2DC), (0x99, 0x2122), (0x9A, 0x161), (0x9B, 0x203A),
   (0x9C, 0x153), (0x9D, 0x9D), (0x9E, 0x17E), (0x9F, 0x178)]

/-- The controls and noncharacters that vanish. -/
def isDropped (n : Nat) : Bool :=
  (1 ≤ n && n ≤ 8) || n == 0xB || (0xE ≤ n && n ≤ 0x1F) || (0x7F ≤ n && n ≤ 0x9F)
    || (0xFDD0 ≤ n && n ≤ 0xFDEF) || (0xFFFE ≤ n % 0x10000)

/-- The text of a numbered reference. -/
def ofNumber (n : Nat) : Text :=
  match mended.lookup n with
  | some m => [.ofNat m]
  | none =>
      if (0xD800 ≤ n && n ≤ 0xDFFF) || 0x10FFFF < n then [.ofNat 0xFFFD]
      else if isDropped n then []
      else [.ofNat n]

/-- The value of a run of hexadecimal digits. -/
def hexValue (t : Text) : Nat := t.foldl (fun n c => 16 * n + c.hexValue?.getD 0) 0

-- ============================================================== names

/-- The text of a name that the standard knows. -/
def ofName? (name : Text) : Option Text := do
  let s ← Text.toString? name
  let c ← s.toList.head?
  let codes ← (namesFrom c).lookup s
  return codes.map CodePoint.ofNat

/-- The longest known beginning of a name, of at least two code points and
at most `n`, with the number of code points it takes. -/
def longest? (name : Text) : Nat → Option (Text × Nat)
  | 0 | 1 => none
  | n + 2 =>
      match ofName? (name.take (n + 2)) with
      | some t => some (t, n + 2)
      | none => longest? name (n + 1)

/-- The text of a name with its semicolon, if it has one. -/
def ofName (name : Text) : Text :=
  match ofName? name with
  | some t => t
  | none =>
      match longest? name (name.length - 1) with
      | some (t, n) => t ++ name.drop n
      | none => CodePoint.ofChar '&' :: name

-- ========================================================= references

/-- The code points that can stand in a name. -/
def isNameChar (c : CodePoint) : Bool :=
  !(c = '\t' || c = '\n' || c.val = 0xC || c = ' ' || c = '<' || c = '&' || c = '#' || c = ';')

/-- The length of a run and of the semicolon after it. -/
def closed (run : Nat) (t : Text) : Nat :=
  if Text.starts ';' (t.drop run) then run + 1 else run

/-- The reference at the start of a text that follows an ampersand: what
it stands for, and how long it is. -/
def reference? (t : Text) : Except Oversized (Option (Text × Nat)) :=
  if Text.starts '#' t then
    let digits := (t.drop 1).takeWhile CodePoint.isAsciiDigit
    let hexDigits := (t.drop 2).takeWhile CodePoint.isHex
    if !digits.isEmpty then
      if digits.length ≤ maxIntegerDigits then
        .ok (some (ofNumber (Text.digitsValue digits), closed (digits.length + 1) t))
      else .error ⟨digits.length⟩
    else if (Text.starts 'x' (t.drop 1) || Text.starts 'X' (t.drop 1)) && !hexDigits.isEmpty then
      .ok (some (ofNumber (hexValue hexDigits), closed (hexDigits.length + 2) t))
    else .ok none
  else
    let run := ((t.take 32).takeWhile isNameChar).length
    if run = 0 then .ok none
    else .ok (some (ofName (t.take (closed run t)), closed run t))

/-- A text with its references replaced. -/
def decode : Text → Except Oversized Text
  | [] => .ok []
  | c :: cs =>
      if c = '&' then do
        match ← reference? cs with
        | none => return c :: (← decode cs)
        | some (t, n) => return t ++ (← decode (cs.drop n))
      else do return c :: (← decode cs)
termination_by t => t.length
decreasing_by all_goals (simp only [List.length_cons, List.length_drop]; omega)

end Charref

end KeyHarvest
