/-
The bytes of a file as text. Bytes are cut into units, each either the
code point of a well-formed sequence or an ill-formed run: a byte that
begins nothing, or the longest beginning of a sequence that then breaks
off. Every byte belongs to one unit. A strict reader refuses ill-formed
runs, a lenient one drops them, and both take any of the three usual line
ends for a line feed.
-/
import KeyHarvest.Text.Basic

namespace KeyHarvest

-- ============================================================= units

namespace Utf8

/-- The number of bytes of a code point. -/
def size (c : CodePoint) : Nat :=
  if c.val < 0x80 then 1 else if c.val < 0x800 then 2 else if c.val < 0x10000 then 3 else 4

/-- What a leading byte announces: how many bytes follow, the range of
the first of them, and its own share of the code point. -/
structure Lead where
  count : Nat
  low : Nat
  high : Nat
  share : Nat
  deriving DecidableEq, Repr

/-- The announcement of a leading byte. The range of the second byte keeps
out overlong forms, surrogates and numbers beyond the last code point. -/
def lead? (b : Nat) : Option Lead :=
  if b < 0x80 then some ⟨0, 0, 0, b⟩
  else if b < 0xC2 then none
  else if b < 0xE0 then some ⟨1, 0x80, 0xBF, b - 0xC0⟩
  else if b = 0xE0 then some ⟨2, 0xA0, 0xBF, 0⟩
  else if b = 0xED then some ⟨2, 0x80, 0x9F, b - 0xE0⟩
  else if b < 0xF0 then some ⟨2, 0x80, 0xBF, b - 0xE0⟩
  else if b = 0xF0 then some ⟨3, 0x90, 0xBF, 0⟩
  else if b < 0xF4 then some ⟨3, 0x80, 0xBF, b - 0xF0⟩
  else if b = 0xF4 then some ⟨3, 0x80, 0x8F, b - 0xF0⟩
  else none

/-- The number that `count` following bytes complete, if they are there,
and the bytes that were not taken. Only the first has a range of its
own. -/
def tails : Nat → Nat → Nat → Nat → List UInt8 → Option Nat × List UInt8
  | 0, _, _, share, bs => (some share, bs)
  | _ + 1, _, _, _, [] => (none, [])
  | n + 1, low, high, share, b :: bs =>
      if low ≤ b.toNat ∧ b.toNat ≤ high then
        tails n 0x80 0xBF (64 * share + (b.toNat - 0x80)) bs
      else (none, b :: bs)

/-- Following bytes are only taken from the front. -/
theorem length_tails_le (n low high share : Nat) (bs : List UInt8) :
    (tails n low high share bs).2.length ≤ bs.length := by
  fun_induction tails n low high share bs with
  | case1 => simp
  | case2 => simp
  | case3 n low high share b bs h ih => simp only [List.length_cons]; omega
  | case4 => simp

/-- The units of a list of bytes; an ill-formed run is `none`. -/
def units : List UInt8 → List (Option CodePoint)
  | [] => []
  | b :: bs =>
      match lead? b.toNat with
      | none => none :: units bs
      | some l =>
          (tails l.count l.low l.high l.share bs).1.map CodePoint.ofNat
            :: units (tails l.count l.low l.high l.share bs).2
termination_by bs => bs.length
decreasing_by
  · simp
  · have := length_tails_le l.count l.low l.high l.share bs
    simp only [List.length_cons]
    omega

-- ============================================================ faults

/-- What is wrong with an ill-formed run. -/
inductive Defect where
  | badStart
  | badContinuation
  | cutOff
  deriving DecidableEq, Repr

/-- An ill-formed run: its bytes, their place, and what is wrong. -/
structure Fault where
  first : UInt8
  start : Nat
  stop : Nat
  defect : Defect
  deriving DecidableEq, Repr

/-- The first ill-formed run of bytes that begin at a place. -/
def fault? (place : Nat) : List UInt8 → Option Fault
  | [] => none
  | b :: bs =>
      match lead? b.toNat with
      | none => some ⟨b, place, place + 1, .badStart⟩
      | some l =>
          let stop := place + 1 + (bs.length - (tails l.count l.low l.high l.share bs).2.length)
          if (tails l.count l.low l.high l.share bs).1.isSome then
            fault? stop (tails l.count l.low l.high l.share bs).2
          else if (tails l.count l.low l.high l.share bs).2.isEmpty then
            some ⟨b, place, stop, .cutOff⟩
          else some ⟨b, place, stop, .badContinuation⟩
termination_by bs => bs.length
decreasing_by
  have := length_tails_le l.count l.low l.high l.share bs
  simp only [List.length_cons]
  omega

/-- The wording of a defect. -/
def Defect.message : Defect → Text
  | .badStart => "invalid start byte"
  | .badContinuation => "invalid continuation byte"
  | .cutOff => "unexpected end of data"

/-- The wording of a fault. -/
def Fault.message (f : Fault) : Text :=
  let place : Text :=
    if f.stop = f.start + 1 then
      " byte 0x" ++ Text.hexDigits 2 f.first.toNat ++ " in position " ++ Text.ofNat f.start
    else " bytes in position " ++ Text.ofNat f.start ++ "-" ++ Text.ofNat (f.stop - 1)
  "'utf-8' codec can't decode" ++ place ++ ": " ++ f.defect.message

end Utf8

-- ============================================================= texts

namespace Text

/-- The text with every line end written as a line feed. -/
def withLineFeeds : Text → Text
  | [] => []
  | c :: cs =>
      if c = '\r' then
        match cs with
        | d :: ds => if d = '\n' then d :: withLineFeeds ds else '\n' :: withLineFeeds (d :: ds)
        | [] => ['\n']
      else c :: withLineFeeds cs

/-- The text of a file without ill-formed runs; the first such run
otherwise. -/
def ofBytesStrictly (bytes : List UInt8) : Except Utf8.Fault Text :=
  match Utf8.fault? 0 bytes with
  | some fault => .error fault
  | none => .ok (withLineFeeds ((Utf8.units bytes).filterMap id))

/-- The text of a file without its ill-formed runs. -/
def ofBytes (bytes : List UInt8) : Text :=
  withLineFeeds ((Utf8.units bytes).filterMap id)

end Text

end KeyHarvest
