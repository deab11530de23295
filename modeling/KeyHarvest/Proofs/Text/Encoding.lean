/-
Texts and their bytes. A scalar text has its bytes in UTF-8 (`encode`),
one to four for a code point, and whoever reads bytes gets back what was
written: every code point is one unit again, whatever stands behind it
(`units_bytes_append`), and there is no fault (`decode_encode`). So bytes
cut where code points begin are read as the text cut there.

The line feed is the only code point with the byte of a line feed in it, so
lines can be told apart in the bytes as well (`lastLine_encode`).
-/
import KeyHarvest.Proofs.Text.Scalar
import Mathlib.Algebra.GroupWithZero.Nat
import Mathlib.Data.List.Induction

namespace KeyHarvest

namespace Utf8

-- ============================================================= writing

/-- A byte behind the first one of a code point, with the last six bits of
a number. -/
def tailByte (n : Nat) : UInt8 := UInt8.ofNat (0x80 + n % 64)

/-- The bytes of a code point. -/
def bytes (c : CodePoint) : List UInt8 :=
  if c.val < 0x80 then [UInt8.ofNat c.val]
  else if c.val < 0x800 then [UInt8.ofNat (0xC0 + c.val / 64), tailByte c.val]
  else if c.val < 0x10000 then
    [UInt8.ofNat (0xE0 + c.val / 4096), tailByte (c.val / 64), tailByte c.val]
  else
    [UInt8.ofNat (0xF0 + c.val / 262144), tailByte (c.val / 4096), tailByte (c.val / 64),
      tailByte c.val]

/-- The bytes of a text. -/
def encode (t : Text) : List UInt8 := t.flatMap bytes

/-- The bytes of a text, if it has any: a surrogate has none. -/
def encode? (t : Text) : Option (List UInt8) := if t.Scalar then some (encode t) else none

/-- The number of bytes of a text. -/
def length (t : Text) : Nat := (t.map size).sum

/-- The text of bytes without ill-formed runs; the first such run
otherwise. -/
def decode (bs : List UInt8) : Except Fault Text :=
  match fault? 0 bs with
  | some fault => .error fault
  | none => .ok ((units bs).filterMap id)

/-- The text of bytes without their ill-formed runs. -/
def decodeLeniently (bs : List UInt8) : Text := (units bs).filterMap id

variable {c : CodePoint} {t u : Text}

/-- A code point has as many bytes as its size says. -/
theorem length_bytes (c : CodePoint) : (bytes c).length = size c := by
  unfold bytes size
  split
  · rfl
  split
  · rfl
  split <;> rfl

@[simp] theorem encode_nil : encode [] = [] := rfl

@[simp] theorem encode_cons (c : CodePoint) (t : Text) : encode (c :: t) = bytes c ++ encode t :=
  List.flatMap_cons

@[simp] theorem encode_append (t u : Text) : encode (t ++ u) = encode t ++ encode u :=
  List.flatMap_append

/-- A text has as many bytes as its length says. -/
theorem length_encode (t : Text) : (encode t).length = length t := by
  induction t with
  | nil => rfl
  | cons c t ih => rw [encode_cons, List.length_append, length_bytes, ih, length, length,
      List.map_cons, List.sum_cons]

theorem length_append (t u : Text) : length (t ++ u) = length t + length u := by
  rw [length, List.map_append, List.sum_append, length, length]

theorem encode?_eq_some (h : t.Scalar) : encode? t = some (encode t) := if_pos h

-- ============================================================= reading

theorem toNat_tailByte (n : Nat) : (tailByte n).toNat = 0x80 + n % 64 :=
  UInt8.toNat_ofNat_of_lt' (by show 0x80 + n % 64 < 256; omega)

/-- A byte behind the first one is taken with its six bits. -/
theorem tails_tailByte {low high v : Nat} (h : low ≤ 0x80 + v % 64 ∧ 0x80 + v % 64 ≤ high)
    (n share : Nat) (bs : List UInt8) :
    tails (n + 1) low high share (tailByte v :: bs)
      = tails n 0x80 0xBF (64 * share + v % 64) bs := by
  rw [tails, toNat_tailByte, if_pos h, Nat.add_sub_cancel_left]

/-- What the leading byte of three announces. -/
theorem lead?_three {v : Nat} (hlow : 0x800 ≤ v) (hhigh : v < 0x10000)
    (hscalar : v < 0xD800 ∨ 0xDFFF < v) :
    ∃ low high, lead? (0xE0 + v / 4096) = some ⟨2, low, high, v / 4096⟩
      ∧ low ≤ 0x80 + v / 64 % 64 ∧ 0x80 + v / 64 % 64 ≤ high := by
  have hshare : 0xE0 + v / 4096 - 0xE0 = v / 4096 := by omega
  unfold lead?
  rw [if_neg (by omega), if_neg (by omega), if_neg (by omega), hshare]
  by_cases hfirst : v / 4096 = 0
  · exact ⟨0xA0, 0xBF, by rw [if_pos (by omega), hfirst], by omega, by omega⟩
  rw [if_neg (by omega)]
  by_cases hsurrogate : v / 4096 = 13
  · exact ⟨0x80, 0x9F, if_pos (by omega), by omega, by omega⟩
  rw [if_neg (by omega), if_pos (by omega)]
  exact ⟨0x80, 0xBF, rfl, by omega, by omega⟩

/-- What the leading byte of four announces. -/
theorem lead?_four {v : Nat} (hlow : 0x10000 ≤ v) (hhigh : v < 0x110000) :
    ∃ low high, lead? (0xF0 + v / 262144) = some ⟨3, low, high, v / 262144⟩
      ∧ low ≤ 0x80 + v / 4096 % 64 ∧ 0x80 + v / 4096 % 64 ≤ high := by
  have hshare : 0xF0 + v / 262144 - 0xF0 = v / 262144 := by omega
  unfold lead?
  rw [if_neg (by omega), if_neg (by omega), if_neg (by omega), if_neg (by omega),
    if_neg (by omega), if_neg (by omega), hshare]
  by_cases hfirst : v / 262144 = 0
  · exact ⟨0x90, 0xBF, by rw [if_pos (by omega), hfirst], by omega, by omega⟩
  rw [if_neg (by omega)]
  by_cases hlast : v / 262144 = 4
  · rw [if_neg (by omega)]
    exact ⟨0x80, 0x8F, if_pos (by omega), by omega, by omega⟩
  rw [if_pos (by omega)]
  exact ⟨0x80, 0xBF, rfl, by omega, by omega⟩

/-- The bytes of a code point are one well-formed sequence, whatever stands
behind them. -/
theorem bytes_wellFormed (h : c.isSurrogate = false) :
    ∃ b bs l, bytes c = b :: bs ∧ lead? b.toNat = some l
      ∧ ∀ rest, tails l.count l.low l.high l.share (bs ++ rest) = (some c.val, rest) := by
  have hlt := c.isLt
  have hscalar : c.val < 0xD800 ∨ 0xDFFF < c.val := by
    rw [CodePoint.isSurrogate, Bool.and_eq_false_iff, decide_eq_false_iff_not,
      decide_eq_false_iff_not] at h
    omega
  have hbyte : ∀ n, n < 256 → (UInt8.ofNat n).toNat = n := fun n hn => UInt8.toNat_ofNat_of_lt' hn
  unfold bytes
  -- one byte, two, three or four; the bounds of the second byte shut out surrogates
  by_cases h1 : c.val < 0x80
  · refine ⟨_, [], ⟨0, 0, 0, c.val⟩, if_pos h1, ?_, fun rest => rfl⟩
    rw [hbyte _ (by omega)]
    exact if_pos h1
  rw [if_neg h1]
  have hlast : ∀ v, 0x80 ≤ 0x80 + v % 64 ∧ 0x80 + v % 64 ≤ 0xBF := fun v => by omega
  by_cases h2 : c.val < 0x800
  · have hlead : lead? (0xC0 + c.val / 64) = some ⟨1, 0x80, 0xBF, c.val / 64⟩ := by
      rw [lead?, if_neg (by omega), if_neg (by omega), if_pos (by omega), Nat.add_sub_cancel_left]
    refine ⟨_, [tailByte c.val], ⟨1, 0x80, 0xBF, c.val / 64⟩, if_pos h2, ?_, fun rest => ?_⟩
    · rw [hbyte _ (by omega)]
      exact hlead
    · dsimp only
      rw [List.cons_append, tails_tailByte (hlast _), tails, Nat.div_add_mod]
      rfl
  rw [if_neg h2]
  by_cases h3 : c.val < 0x10000
  · obtain ⟨low, high, hlead, hsecond⟩ := lead?_three (by omega) h3 hscalar
    have hvalue : 64 * (64 * (c.val / 4096) + c.val / 64 % 64) + c.val % 64 = c.val := by omega
    refine ⟨_, [tailByte (c.val / 64), tailByte c.val], ⟨2, low, high, c.val / 4096⟩, if_pos h3, ?_,
      fun rest => ?_⟩
    · rw [hbyte _ (by omega)]
      exact hlead
    · dsimp only
      rw [List.cons_append, tails_tailByte hsecond, List.cons_append, tails_tailByte (hlast _),
        tails, hvalue]
      rfl
  obtain ⟨low, high, hlead, hsecond⟩ := lead?_four (by omega) hlt
  have hvalue : 64 * (64 * (64 * (c.val / 262144) + c.val / 4096 % 64) + c.val / 64 % 64)
      + c.val % 64 = c.val := by omega
  refine ⟨_, [tailByte (c.val / 4096), tailByte (c.val / 64), tailByte c.val],
    ⟨3, low, high, c.val / 262144⟩, if_neg h3, ?_, fun rest => ?_⟩
  · rw [hbyte _ (by omega)]
    exact hlead
  · dsimp only
    rw [List.cons_append, tails_tailByte hsecond, List.cons_append, tails_tailByte (hlast _),
      List.cons_append, tails_tailByte (hlast _), tails, hvalue]
    rfl

theorem units_bytes_append (h : c.isSurrogate = false) (rest : List UInt8) :
    units (bytes c ++ rest) = some c :: units rest := by
  obtain ⟨b, bs, l, hbytes, hlead, htails⟩ := bytes_wellFormed h
  rw [hbytes, List.cons_append, units, hlead]
  dsimp only
  rw [htails]
  have hc : CodePoint.ofNat c.val = c := dif_pos c.isLt
  rw [Option.map_some, hc]

theorem fault?_bytes_append (h : c.isSurrogate = false) (place : Nat) (rest : List UInt8) :
    ∃ next, fault? place (bytes c ++ rest) = fault? next rest := by
  obtain ⟨b, bs, l, hbytes, hlead, htails⟩ := bytes_wellFormed h
  rw [hbytes, List.cons_append, fault?, hlead]
  dsimp only
  rw [htails]
  exact ⟨_, if_pos rfl⟩

/-- The bytes of a text without surrogates are read as its code points. -/
theorem units_encode (h : t.Scalar) : units (encode t) = t.map some := by
  induction t with
  | nil => rw [encode_nil, units, List.map_nil]
  | cons c t ih =>
      rw [Text.scalar_cons] at h
      rw [encode_cons, units_bytes_append h.1, ih h.2, List.map_cons]

/-- The bytes of a text without surrogates have no fault. -/
theorem fault?_encode (h : t.Scalar) (place : Nat) : fault? place (encode t) = none := by
  induction t generalizing place with
  | nil => rw [encode_nil, fault?]
  | cons c t ih =>
      rw [Text.scalar_cons] at h
      obtain ⟨next, hnext⟩ := fault?_bytes_append h.1 place (encode t)
      rw [encode_cons, hnext, ih h.2]

/-- A text without surrogates is read back. -/
theorem decodeLeniently_encode (h : t.Scalar) : decodeLeniently (encode t) = t := by
  rw [decodeLeniently, units_encode h, List.filterMap_map]
  exact List.filterMap_some

/-- What is written can be read, and is the same. -/
theorem decode_encode (h : t.Scalar) : decode (encode t) = .ok t := by
  rw [decode, fault?_encode h]
  exact congrArg Except.ok (decodeLeniently_encode h)

-- ============================================================= cutting

/-- The first code points of a text have the first bytes. -/
theorem take_encode (t : Text) (n : Nat) :
    (encode t).take (length (t.take n)) = encode (t.take n) := by
  have hsplit : encode t = encode (t.take n) ++ encode (t.drop n) := by
    rw [← encode_append, List.take_append_drop]
  rw [hsplit, ← length_encode, List.take_left]

/-- The other code points have the other bytes. -/
theorem drop_encode (t : Text) (n : Nat) :
    (encode t).drop (length (t.take n)) = encode (t.drop n) := by
  have hsplit : encode t = encode (t.take n) ++ encode (t.drop n) := by
    rw [← encode_append, List.take_append_drop]
  rw [hsplit, ← length_encode, List.drop_left]

/-- Bytes cut where two code points begin are those of the text between. -/
theorem slice_encode (t : Text) (start stop : Nat) :
    ((encode t).drop (length (t.take start))).take (length (t.take stop) - length (t.take start))
      = encode (Text.slice t start stop) := by
  have htake : length (t.take stop) - length (t.take start)
      = (encode (Text.slice t start stop)).length := by
    rcases Nat.le_total start stop with hle | hle
    · have hsplit : t.take stop = t.take start ++ Text.slice t start stop := by
        rw [Text.slice, ← List.take_add, Nat.add_sub_cancel' hle]
      rw [hsplit, length_append, length_encode, Nat.add_sub_cancel_left]
    · rw [Text.slice, Nat.sub_eq_zero_of_le hle, List.take_zero]
      refine Nat.sub_eq_zero_of_le ?_
      have hsplit : t.take start = t.take stop ++ (t.drop stop).take (start - stop) := by
        rw [← List.take_add, Nat.add_sub_cancel' hle]
      rw [hsplit, length_append]
      exact Nat.le_add_right _ _
  have hpart : encode (t.drop start)
      = encode (Text.slice t start stop) ++ encode ((t.drop start).drop (stop - start)) := by
    rw [← encode_append, Text.slice, List.take_append_drop]
  rw [drop_encode, htake, hpart, List.take_left]

-- =============================================================== lines

/-- The byte of a line feed. -/
def lineFeed : UInt8 := 0x0A

/-- What follows the last line feed. -/
def lastLine (bs : List UInt8) : List UInt8 := (bs.reverse.takeWhile (· ≠ lineFeed)).reverse

theorem bytes_lineFeed : bytes '\n' = [lineFeed] := by decide

/-- Only a line feed has the byte of one. -/
theorem lineFeed_not_mem_bytes (h : c ≠ '\n') : lineFeed ∉ bytes c := by
  have hval : c.val ≠ 10 := fun hc => h (CodePoint.ext hc)
  have hlt := c.isLt
  have hbyte : ∀ n, n < 256 → n ≠ 10 → lineFeed ≠ UInt8.ofNat n := by
    intro n hn hne heq
    refine hne ?_
    rw [← UInt8.toNat_ofNat_of_lt' hn, ← heq]
    rfl
  have htail : ∀ n, lineFeed ≠ tailByte n := fun n => hbyte _ (by omega) (by omega)
  unfold bytes
  repeat' split
  all_goals simp only [List.mem_cons, List.not_mem_nil, or_false, htail]
  · exact hbyte _ (by omega) hval
  · exact hbyte _ (by omega) (by omega)
  · exact hbyte _ (by omega) (by omega)
  · exact hbyte _ (by omega) (by omega)

/-- There are as many line feeds among the bytes as in the text. -/
theorem count_encode (t : Text) : (encode t).count lineFeed = t.count (CodePoint.ofChar '\n') := by
  induction t with
  | nil => rfl
  | cons c t ih =>
      rw [encode_cons, List.count_append, ih, List.count_cons, Nat.add_comm]
      congr 1
      by_cases hc : c = '\n'
      · rw [hc, bytes_lineFeed]
        decide
      · rw [List.count_eq_zero_of_not_mem (lineFeed_not_mem_bytes hc)]
        simp [hc]

/-- The last line of the bytes is that of the text. -/
theorem lastLine_encode (t : Text) : lastLine (encode t) = encode (Text.afterLast '\n' t) := by
  induction t using List.reverseRecOn with
  | nil => rfl
  | append_singleton t c ih =>
      unfold lastLine Text.afterLast at ih ⊢
      rw [encode_append, encode_cons, encode_nil, List.append_nil, List.reverse_append,
        List.reverse_append, List.reverse_singleton, List.singleton_append]
      by_cases hc : c = '\n'
      · rw [hc, bytes_lineFeed]
        rfl
      · have hbytes : ∀ b ∈ (bytes c).reverse, decide (b ≠ lineFeed) = true := by
          intro b hb
          refine decide_eq_true fun heq => lineFeed_not_mem_bytes hc ?_
          rw [← heq]
          exact List.mem_reverse.1 hb
        rw [List.takeWhile_append_of_pos hbytes, List.takeWhile_cons_of_pos (by simpa using hc),
          List.reverse_append, List.reverse_reverse, List.reverse_cons, encode_append, ih,
          encode_cons, encode_nil, List.append_nil]

end Utf8

end KeyHarvest
