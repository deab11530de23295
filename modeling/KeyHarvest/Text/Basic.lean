/-
Texts as lists of code points. A source text never holds a surrogate, but
the escapes of a string literal can spell one, and such a string is a
value like any other: it is compared, sorted and reported. So a text is a
list of Unicode code points, surrogates included, and a character literal
is read as the code point it stands for.

The rest of the file is the small vocabulary that every reader of the
library shares: literal beginnings, search, cutting at a separator, and
the order by code point.
-/

namespace KeyHarvest

-- ======================================================= code points

/-- A Unicode code point, surrogates included. -/
structure CodePoint where
  val : Nat
  isLt : val < 0x110000
  deriving DecidableEq, Repr

/-- A text is the list of its code points. -/
abbrev Text := List CodePoint

namespace CodePoint

/-- The code point of a character. -/
def ofChar (c : Char) : CodePoint :=
  ⟨c.toNat, by
    have h := c.valid
    simp only [UInt32.isValidChar, Nat.isValidChar] at h
    simp only [Char.toNat]
    omega⟩

instance : Coe Char CodePoint := ⟨ofChar⟩

/-- The code point of a number, or the replacement character when the
number is out of range. -/
def ofNat (n : Nat) : CodePoint :=
  if h : n < 0x110000 then ⟨n, h⟩ else ⟨0xFFFD, by omega⟩

instance : Inhabited CodePoint := ⟨ofNat 0⟩

/-- A surrogate is the half of a pair in UTF-16 and no character by itself. -/
def isSurrogate (c : CodePoint) : Bool := 0xD800 ≤ c.val && c.val ≤ 0xDFFF

/-- The character of a code point; a surrogate has none. -/
def toChar? (c : CodePoint) : Option Char :=
  if h : c.val.isValidChar then some (Char.ofNatAux c.val h) else none

theorem ext {a b : CodePoint} (h : a.val = b.val) : a = b := by
  cases a; cases b; simp_all

/-- Distinct characters have distinct code points. -/
@[simp] theorem ofChar_inj {a b : Char} : ofChar a = ofChar b ↔ a = b := by
  constructor
  · intro h
    have h' : a.toNat = b.toNat := congrArg CodePoint.val h
    exact Char.ext (UInt32.toNat_inj.mp h')
  · rintro rfl; rfl

/-- Membership in a closed range of numbers. -/
def within (c : CodePoint) (low high : Nat) : Bool := low ≤ c.val && c.val ≤ high

/-- Membership in one of several closed ranges. -/
def inRanges (c : CodePoint) (ranges : List (Nat × Nat)) : Bool :=
  ranges.any fun r => c.within r.1 r.2

/-- An ASCII digit. -/
def isAsciiDigit (c : CodePoint) : Bool := c.within 0x30 0x39

/-- An ASCII letter. -/
def isAsciiLetter (c : CodePoint) : Bool := c.within 0x41 0x5A || c.within 0x61 0x7A

/-- The value of a hexadecimal digit of either case. -/
def hexValue? (c : CodePoint) : Option Nat :=
  if c.within 0x30 0x39 then some (c.val - 0x30)
  else if c.within 0x41 0x46 then some (c.val - 0x41 + 10)
  else if c.within 0x61 0x66 then some (c.val - 0x61 + 10)
  else none

/-- A hexadecimal digit of either case. -/
def isHex (c : CodePoint) : Bool := c.hexValue?.isSome

end CodePoint

-- ============================================================= texts

namespace Text

/-- The text of a string. -/
def ofString (s : String) : Text := s.toList.map CodePoint.ofChar

instance : Coe String Text := ⟨ofString⟩

/-- The string of a text; a text with a surrogate has none. -/
def toString? (t : Text) : Option String :=
  (t.mapM CodePoint.toChar?).map String.ofList

/-- Whether a text is one of several strings. -/
def isOneOf (names : List String) (t : Text) : Bool := names.any fun s => ofString s = t

/-- The decimal numeral of a natural number. -/
def ofNat (n : Nat) : Text := (Nat.toDigits 10 n).map CodePoint.ofChar

/-- The last so many hexadecimal digits of a number. -/
def hexDigits : Nat → Nat → Text
  | 0, _ => []
  | count + 1, n => hexDigits count (n / 16) ++ [CodePoint.ofChar (Nat.digitChar (n % 16))]

/-- Whether the first code point is `c`. -/
def starts (c : CodePoint) : Text → Bool
  | [] => false
  | d :: _ => d = c

/-- What follows `lit`, when the text begins with it. -/
def after? (lit : Text) (t : Text) : Option Text :=
  if lit.isPrefixOf t then some (t.drop lit.length) else none

/-- What follows a beginning is the rest of the text. -/
theorem after?_eq_some {lit t rest : Text} : after? lit t = some rest ↔ t = lit ++ rest := by
  unfold after?
  constructor
  · intro h
    split at h
    · next hbegins =>
        obtain ⟨u, rfl⟩ := List.isPrefixOf_iff_prefix.1 hbegins
        rw [List.drop_left] at h
        rw [Option.some.inj h]
    · cases h
  · rintro rfl
    rw [if_pos (List.isPrefixOf_iff_prefix.2 (List.prefix_append _ _)), List.drop_left]

theorem after?_cons (a c : CodePoint) (lit cs : Text) :
    after? (a :: lit) (c :: cs) = if c = a then after? lit cs else none := by
  unfold after?
  by_cases hc : c = a
  · subst hc
    simp
  · have hne : (a == c) = false := by simpa using Ne.symm hc
    rw [List.isPrefixOf_cons_cons, hne, if_neg hc]
    rfl

/-- Whether `lit` stands somewhere in the text. -/
def holds (lit : Text) : Text → Bool
  | [] => lit.isEmpty
  | c :: cs => lit.isPrefixOf (c :: cs) || holds lit cs

theorem holds_iff {lit t : Text} : holds lit t = true ↔ lit <:+: t := by
  induction t with
  | nil => rw [holds, List.isEmpty_iff, List.infix_nil]
  | cons c cs ih =>
      rw [holds, Bool.or_eq_true, List.isPrefixOf_iff_prefix, ih, List.infix_cons_iff]

/-- The text cut at every `sep`; there is always one piece more than
separators. -/
def splitOn (sep : CodePoint) : Text → List Text
  | [] => [[]]
  | c :: cs =>
      match splitOn sep cs with
      | [] => [[c]]
      | piece :: pieces => if c = sep then [] :: piece :: pieces else (c :: piece) :: pieces

/-- What follows the last `sep`, or the whole text when there is none. -/
def afterLast (sep : CodePoint) (t : Text) : Text :=
  (t.reverse.takeWhile (· ≠ sep)).reverse

/-- Texts with `sep` between neighbours. -/
def join (sep : Text) (ts : List Text) : Text := List.intercalate sep ts

/-- The text without the code points of `p` at either end. -/
def trimWhile (p : CodePoint → Bool) (t : Text) : Text :=
  ((t.dropWhile p).reverse.dropWhile p).reverse

/-- The order of two texts by code point; a text comes before its
extensions. -/
def compare : Text → Text → Ordering
  | [], [] => .eq
  | [], _ :: _ => .lt
  | _ :: _, [] => .gt
  | a :: as, b :: bs => (Ord.compare a.val b.val).then (compare as bs)

/-- The order by code point as a test. -/
def le (a b : Text) : Bool := (compare a b).isLE

instance : Ord Text := ⟨compare⟩

end Text

end KeyHarvest
