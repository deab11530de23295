/-
Numerals, and what they denote. A numeral is given by its parts: digits, a
point with digits behind it, an exponent. The lexer knows none of the
parts; it counts code points (`numberLength`) and later picks the value out
of what it has cut off (`Lexeme.numeral`).

The two agree. What is counted is a numeral (`exists_numeral`), no numeral
at the same place is longer (`length_le_numberLength`), and the value is
the number that the parts denote (`numeral_eq_ok`): exact for digits alone,
and else the nearest floating-point number.
-/
import KeyHarvest.Proofs.Expr.Lexing
import KeyHarvest.Proofs.Expr.Oversized
import KeyHarvest.Proofs.Number.Nearest

namespace KeyHarvest

-- =========================================================== numerals

/-- The exponent of a numeral: its mark, a sign if there is one, and
digits. -/
structure Exponent where
  mark : CodePoint
  sign : Text
  digits : Text
  isMark : mark = 'e' ∨ mark = 'E'
  isSign : sign = [] ∨ sign = [CodePoint.ofChar '+'] ∨ sign = [CodePoint.ofChar '-']
  isDigits : ∀ c ∈ digits, c.isDigit = true
  nonempty : digits ≠ []

namespace Exponent

/-- How an exponent is written. -/
def spelling (x : Exponent) : Text := x.mark :: (x.sign ++ x.digits)

/-- The power of ten that an exponent stands for. -/
def power (x : Exponent) : Int :=
  if x.sign = [CodePoint.ofChar '-'] then -Text.digitsValue x.digits else Text.digitsValue x.digits

end Exponent

/-- A numeral: digits, a point with digits behind it if there is one, and
an exponent if there is one. At least one digit is not of the exponent. -/
structure Numeral where
  whole : Text
  fraction? : Option Text
  exponent? : Option Exponent
  isDigits : ∀ c ∈ whole, c.isDigit = true
  isFraction : ∀ f ∈ fraction?, ∀ c ∈ f, c.isDigit = true
  nonempty : whole ≠ [] ∨ ∃ f ∈ fraction?, f ≠ []

namespace Numeral

/-- The digits behind the point. -/
def fraction (n : Numeral) : Text := n.fraction?.getD []

/-- A numeral without its exponent, as it is written. -/
def mantissa (n : Numeral) : Text := n.whole ++ n.fraction?.elim [] (CodePoint.ofChar '.' :: ·)

/-- How a numeral is written. -/
def spelling (n : Numeral) : Text := n.mantissa ++ n.exponent?.elim [] Exponent.spelling

/-- The power of ten of the exponent. -/
def power (n : Numeral) : Int := n.exponent?.elim 0 Exponent.power

/-- The rational number that a numeral is. -/
def value (n : Numeral) : ℚ :=
  Text.digitsValue (n.whole ++ n.fraction) * 10 ^ (n.power - n.fraction.length)

/-- Digits alone. -/
def IsInteger (n : Numeral) : Prop := n.fraction? = none ∧ n.exponent? = none

/-- The number that a numeral denotes: digits alone are exact, all others
are worth the nearest floating-point number. -/
def Denotes (n : Numeral) : Number → Prop
  | .integer k => n.IsInteger ∧ (k : ℚ) = n.value
  | .float x => ¬ n.IsInteger ∧ Binary64.Nearest n.value x

/-- What follows the digits of a numeral in front of its point. -/
def tail (n : Numeral) : Text :=
  n.fraction?.elim [] (CodePoint.ofChar '.' :: ·) ++ n.exponent?.elim [] Exponent.spelling

theorem mantissa_ne_nil (n : Numeral) : n.mantissa ≠ [] := by
  intro h
  obtain ⟨hwhole, hfraction⟩ := List.append_eq_nil_iff.1 h
  rcases n.nonempty with hne | ⟨f, hf, -⟩
  · exact hne hwhole
  · rw [hf] at hfraction
    cases hfraction

/-- A numeral is its whole part and what follows it. -/
theorem spelling_eq (n : Numeral) : n.spelling = n.whole ++ n.tail := by
  rw [spelling, mantissa, tail, List.append_assoc]

end Numeral

-- ============================================================= digits

/-- A run of digits ends where something else begins. -/
theorem takeWhile_digits {ds r : Text} (hds : ∀ c ∈ ds, c.isDigit = true)
    (hr : ∀ c cs, r = c :: cs → c.isDigit = false) :
    (ds ++ r).takeWhile CodePoint.isDigit = ds := by
  rw [List.takeWhile_append_of_pos hds]
  cases r with
  | nil => rw [List.takeWhile_nil, List.append_nil]
  | cons c cs => rw [List.takeWhile_cons_of_neg (by rw [hr c cs rfl]; decide), List.append_nil]

namespace Lexeme

/-- Digits in front of a text make its run of digits longer. -/
theorem digitRun_append {ds : Text} (hds : ∀ c ∈ ds, c.isDigit = true) (r : Text) :
    digitRun (ds ++ r) = ds.length + digitRun r := by
  rw [digitRun, List.takeWhile_append_of_pos hds, List.length_append, digitRun]

/-- Digits at the start of a text belong to its run of digits. -/
theorem length_le_digitRun {ds t : Text} (hds : ∀ c ∈ ds, c.isDigit = true) (h : ds <+: t) :
    ds.length ≤ digitRun t := by
  obtain ⟨r, rfl⟩ := h
  rw [digitRun_append hds]
  exact Nat.le_add_right _ _

/-- The run of digits at the start of a text is digits. -/
theorem isDigit_of_mem_take_digitRun {t : Text} {c : CodePoint} (h : c ∈ t.take (digitRun t)) :
    c.isDigit = true := by
  rw [digitRun, ← List.prefix_iff_eq_take.1 (List.takeWhile_prefix _)] at h
  exact List.mem_takeWhile_imp h

/-- A text is at least as long as its run of digits. -/
theorem length_take_digitRun (t : Text) : (t.take (digitRun t)).length = digitRun t := by
  rw [digitRun, ← List.prefix_iff_eq_take.1 (List.takeWhile_prefix _)]

end Lexeme

-- ========================================================== exponents

namespace Lexeme

/-- An exponent at the start of a text is no longer than the one that is
read there. -/
theorem length_le_exponentLength {x : Exponent} {t : Text} (h : x.spelling <+: t) :
    x.spelling.length ≤ exponentLength t := by
  obtain ⟨r, rfl⟩ := h
  obtain ⟨mark, sign, digits, hmark, hsign, hdigits, hne⟩ := x
  have hrun : digits.length ≤ digitRun (digits ++ r) :=
    length_le_digitRun hdigits (List.prefix_append _ _)
  have hpos := List.length_pos_iff.2 hne
  simp only [Exponent.spelling, List.cons_append, List.append_assoc, List.length_cons,
    List.length_append]
  rcases hsign with rfl | rfl | rfl
  · cases digits with
    | nil => exact absurd rfl hne
    | cons d ds =>
        have hd := hdigits d List.mem_cons_self
        have hplus : d ≠ '+' := by
          rintro rfl
          exact absurd hd (by decide)
        have hminus : d ≠ '-' := by
          rintro rfl
          exact absurd hd (by decide)
        rw [List.nil_append, List.cons_append, exponentLength, if_pos hmark]
        rw [if_neg (not_or.2 ⟨hplus, hminus⟩)]
        simp only [List.cons_append, List.length_cons, List.length_nil] at hrun ⊢
        rw [if_neg (by omega)]
        omega
  · rw [List.singleton_append, exponentLength, if_pos hmark]
    rw [if_pos (.inl rfl), if_neg (by omega), List.length_singleton]
    omega
  · rw [List.singleton_append, exponentLength, if_pos hmark]
    rw [if_pos (.inr rfl), if_neg (by omega), List.length_singleton]
    omega

/-- What is read as an exponent is one. -/
theorem exists_exponent {t : Text} (h : exponentLength t ≠ 0) :
    ∃ x : Exponent, x.spelling = t.take (exponentLength t) := by
  cases t with
  | nil => exact absurd rfl h
  | cons c cs =>
      unfold exponentLength at h ⊢
      dsimp only at h ⊢
      by_cases hc : c = 'e' ∨ c = 'E'
      · rw [if_pos hc] at h ⊢
        cases cs with
        | nil => exact absurd rfl h
        | cons s ds =>
            dsimp only at h ⊢
            by_cases hs : s = '+' ∨ s = '-'
            · rw [if_pos hs] at h ⊢
              by_cases hrun : digitRun ds = 0
              · rw [if_pos hrun] at h
                exact absurd rfl h
              · rw [if_neg hrun, List.take_succ_cons, List.take_succ_cons]
                refine ⟨⟨c, [s], ds.take (digitRun ds), hc, ?_, ?_, ?_⟩, rfl⟩
                · rcases hs with rfl | rfl
                  · exact .inr (.inl rfl)
                  · exact .inr (.inr rfl)
                · intro d hd
                  exact isDigit_of_mem_take_digitRun hd
                · rw [← List.length_pos_iff, length_take_digitRun]
                  exact Nat.pos_of_ne_zero hrun
            · rw [if_neg hs] at h ⊢
              by_cases hrun : digitRun (s :: ds) = 0
              · rw [if_pos hrun] at h
                exact absurd rfl h
              · rw [if_neg hrun, List.take_succ_cons]
                refine ⟨⟨c, [], (s :: ds).take (digitRun (s :: ds)), hc, .inl rfl, ?_, ?_⟩, rfl⟩
                · intro d hd
                  exact isDigit_of_mem_take_digitRun hd
                · rw [← List.length_pos_iff, length_take_digitRun]
                  exact Nat.pos_of_ne_zero hrun
      · rw [if_neg hc] at h
        exact absurd rfl h

-- ========================================================== mantissas

/-- Digits and a point, and digits behind the point. -/
theorem mantissaLength_point {ds : Text} (hds : ∀ c ∈ ds, c.isDigit = true) (r : Text) :
    mantissaLength (ds ++ CodePoint.ofChar '.' :: r)
      = if ds.length = 0 ∧ digitRun r = 0 then 0 else ds.length + 1 + digitRun r := by
  have hrun : digitRun (ds ++ CodePoint.ofChar '.' :: r) = ds.length := by
    rw [digitRun, takeWhile_digits hds]
    rintro c cs hc
    cases hc
    decide
  unfold mantissaLength
  simp only [hrun, List.drop_left, if_pos]

/-- Digits without a point behind them. -/
theorem mantissaLength_plain {ds r : Text} (hds : ∀ c ∈ ds, c.isDigit = true)
    (hr : ∀ c cs, r = c :: cs → c.isDigit = false ∧ c ≠ '.') :
    mantissaLength (ds ++ r) = ds.length := by
  have hrun : digitRun (ds ++ r) = ds.length := by
    rw [digitRun, takeWhile_digits hds fun c cs hc => (hr c cs hc).1]
  unfold mantissaLength
  simp only [hrun, List.drop_left]
  cases r with
  | nil => rfl
  | cons c cs => exact if_neg (hr c cs rfl).2

/-- The digits in front of a text, and what follows them: a point, or
something else that is no digit. -/
theorem exists_digits (t : Text) :
    ∃ ds : Text, (∀ c ∈ ds, c.isDigit = true) ∧
      ((∃ r, t = ds ++ CodePoint.ofChar '.' :: r)
        ∨ ∃ r, t = ds ++ r ∧ ∀ c cs, r = c :: cs → c.isDigit = false ∧ c ≠ '.') := by
  refine ⟨t.takeWhile CodePoint.isDigit, fun c hc => List.mem_takeWhile_imp hc, ?_⟩
  have hsplit : t = t.takeWhile CodePoint.isDigit ++ t.dropWhile CodePoint.isDigit :=
    List.takeWhile_append_dropWhile.symm
  cases hr : t.dropWhile CodePoint.isDigit with
  | nil => exact .inr ⟨[], by rw [← hr, ← hsplit], by simp⟩
  | cons c cs =>
      have hc : c.isDigit = false := by
        have hne : t.dropWhile CodePoint.isDigit ≠ [] := by simp [hr]
        have hhead := List.head_dropWhile_not CodePoint.isDigit hne
        simpa [hr] using hhead
      by_cases hpoint : c = '.'
      · exact .inl ⟨cs, by rw [← hpoint, ← hr, ← hsplit]⟩
      · refine .inr ⟨c :: cs, by rw [← hr, ← hsplit], ?_⟩
        rintro d ds' hd
        cases hd
        exact ⟨hc, hpoint⟩

/-- What is read in front of an exponent is a numeral. -/
theorem exists_mantissa {t : Text} (h : mantissaLength t ≠ 0) :
    ∃ n : Numeral, n.exponent? = none ∧ n.mantissa = t.take (mantissaLength t) := by
  obtain ⟨ds, hds, ⟨r, rfl⟩ | ⟨r, rfl, hr⟩⟩ := exists_digits t
  · rw [mantissaLength_point hds] at h ⊢
    by_cases hzero : ds.length = 0 ∧ digitRun r = 0
    · exact absurd (if_pos hzero) h
    · refine ⟨⟨ds, some (r.take (digitRun r)), none, hds, ?_, ?_⟩, rfl, ?_⟩
      · rintro f hf c hc
        cases hf
        exact isDigit_of_mem_take_digitRun hc
      · by_cases hwhole : ds = []
        · refine .inr ⟨_, rfl, ?_⟩
          rw [← List.length_pos_iff, length_take_digitRun]
          subst hwhole
          simpa [Nat.pos_iff_ne_zero] using hzero
        · exact .inl hwhole
      · have htake : (ds ++ CodePoint.ofChar '.' :: r).take (ds.length + 1 + digitRun r)
            = ds ++ CodePoint.ofChar '.' :: r.take (digitRun r) := by
          rw [Nat.add_assoc, List.take_length_add_append, Nat.add_comm 1, List.take_succ_cons]
        rw [if_neg hzero]
        exact htake.symm
  · rw [mantissaLength_plain hds hr] at h ⊢
    refine ⟨⟨ds, none, none, hds, by simp, .inl ?_⟩, rfl, ?_⟩
    · rw [← List.length_pos_iff]
      exact Nat.pos_of_ne_zero h
    · rw [List.take_left]
      exact List.append_nil ds

/-- The run of digits at the start belongs to the mantissa. -/
theorem digitRun_le_mantissaLength (t : Text) : digitRun t ≤ mantissaLength t := by
  unfold mantissaLength
  dsimp only
  split
  · split
    · split <;> omega
    · exact Nat.le_refl _
  · exact Nat.le_refl _

/-- The digits and the point of a numeral at the start of a text are no
longer than what is read in front of an exponent there. -/
theorem length_le_mantissaLength (n : Numeral) {t : Text} (h : n.mantissa <+: t) :
    n.mantissa.length ≤ mantissaLength t := by
  obtain ⟨whole, fraction?, exponent?, hwhole, hfraction, hne⟩ := n
  obtain ⟨r, rfl⟩ := h
  cases fraction? with
  | none =>
      simp only [Numeral.mantissa, Option.elim_none, List.append_nil]
      calc whole.length ≤ digitRun (whole ++ r) :=
            length_le_digitRun hwhole (List.prefix_append _ _)
        _ ≤ mantissaLength (whole ++ r) := digitRun_le_mantissaLength _
  | some f =>
      have hf : f.length ≤ digitRun (f ++ r) :=
        length_le_digitRun (hfraction f rfl) (List.prefix_append _ _)
      simp only [Numeral.mantissa, Option.elim_some, List.append_assoc, List.cons_append]
      rw [mantissaLength_point hwhole, if_neg, List.length_append, List.length_cons]
      · omega
      · rintro ⟨h0, h1⟩
        rcases hne with hne | ⟨f', hf', hne⟩
        · exact hne (List.eq_nil_iff_length_eq_zero.2 h0)
        · cases hf'
          exact hne (List.eq_nil_iff_length_eq_zero.2 (by omega))

/-- What is read in front of an exponent holds no exponent mark. -/
theorem ne_mark_of_mem_take_mantissaLength {t : Text} {c : CodePoint}
    (h : c ∈ t.take (mantissaLength t)) : ¬ (c = 'e' ∨ c = 'E') := by
  by_cases hzero : mantissaLength t = 0
  · rw [hzero] at h
    cases h
  · obtain ⟨n, -, hn⟩ := exists_mantissa hzero
    rw [← hn, Numeral.mantissa, List.mem_append] at h
    have hmark : ∀ d : CodePoint, d.isDigit = true ∨ d = '.' → ¬ (d = 'e' ∨ d = 'E') := by
      rintro d hd (rfl | rfl)
      · exact absurd hd (by decide)
      · exact absurd hd (by decide)
    rcases h with h | h
    · exact hmark c (.inl (n.isDigits c h))
    · cases hf : n.fraction? with
      | none => rw [hf] at h; cases h
      | some f =>
          rw [hf] at h
          rcases List.mem_cons.1 h with rfl | h
          · exact hmark _ (.inr rfl)
          · exact hmark c (.inl (n.isFraction f hf c h))

-- =========================================================== numerals

/-- What is read as a number is a numeral. -/
theorem exists_numeral {t : Text} (h : numberLength t ≠ 0) :
    ∃ n : Numeral, n.spelling = t.take (numberLength t) := by
  have hmantissa : mantissaLength t ≠ 0 := fun h0 => h (by rw [numberLength, if_pos h0])
  obtain ⟨n, hn, htake⟩ := exists_mantissa hmantissa
  rw [numberLength, if_neg hmantissa, List.take_add]
  by_cases hexponent : exponentLength (t.drop (mantissaLength t)) = 0
  · refine ⟨n, ?_⟩
    rw [hexponent, List.take_zero, ← htake, Numeral.spelling, hn]
    rfl
  · obtain ⟨x, hx⟩ := exists_exponent hexponent
    refine ⟨{ n with exponent? := some x }, ?_⟩
    rw [← hx, ← htake]
    rfl

/-- What is read as a number is the longest numeral at the start of the
text. -/
theorem length_le_numberLength (n : Numeral) {t : Text} (h : n.spelling <+: t) :
    n.spelling.length ≤ numberLength t := by
  have hprefix : n.mantissa <+: t := (List.prefix_append _ _).trans h
  have hle := length_le_mantissaLength n hprefix
  have hpos : 0 < n.mantissa.length := List.length_pos_iff.2 n.mantissa_ne_nil
  rw [numberLength, if_neg (by omega), Numeral.spelling, List.length_append]
  cases hx : n.exponent? with
  | none =>
      simp only [Option.elim_none, List.length_nil]
      omega
  | some x =>
      rw [Numeral.spelling, hx] at h
      obtain ⟨r, rfl⟩ := h
      simp only [Option.elim_some, List.append_assoc] at hle ⊢
      -- A longer mantissa would have the exponent mark in it.
      have hmantissa : mantissaLength (n.mantissa ++ (x.spelling ++ r)) = n.mantissa.length := by
        refine Nat.le_antisymm (Nat.not_lt.1 fun hlt => ?_) hle
        refine ne_mark_of_mem_take_mantissaLength (t := n.mantissa ++ (x.spelling ++ r))
          (c := x.mark) ?_ x.isMark
        rw [← Nat.add_sub_cancel' hle, List.take_length_add_append]
        obtain ⟨k, hk⟩ := Nat.exists_eq_add_of_lt hlt
        rw [hk, Nat.add_assoc, Nat.add_sub_cancel_left, Exponent.spelling, List.cons_append,
          List.take_succ_cons]
        exact List.mem_append_right _ List.mem_cons_self
      rw [hmantissa, List.drop_left]
      exact Nat.add_le_add_left (length_le_exponentLength (List.prefix_append _ _)) _

end Lexeme

-- ============================================================= values

namespace Exponent

/-- The sign of an exponent is read off its first code point, and its size
off its digits. -/
theorem power_eq (x : Exponent) :
    (if Text.starts '-' (x.sign ++ x.digits)
      then -(Text.digitsValue ((x.sign ++ x.digits).filter CodePoint.isDigit) : Int)
      else Text.digitsValue ((x.sign ++ x.digits).filter CodePoint.isDigit)) = x.power := by
  obtain ⟨mark, sign, digits, hmark, hsign, hdigits, hne⟩ := x
  have hall : digits.filter CodePoint.isDigit = digits := List.filter_eq_self.2 hdigits
  rcases hsign with rfl | rfl | rfl
  · cases digits with
    | nil => exact absurd rfl hne
    | cons d ds =>
        have hd : d ≠ '-' := by
          rintro rfl
          exact absurd (hdigits _ List.mem_cons_self) (by decide)
        simp only [List.nil_append, hall, Text.starts, decide_eq_true_eq, if_neg hd, power]
        exact (if_neg (by decide)).symm
  · simp only [List.singleton_append, power]
    rw [List.filter_cons_of_neg (by decide), hall]
    rfl
  · simp only [List.singleton_append, power]
    rw [List.filter_cons_of_neg (by decide), hall]
    rfl

end Exponent

namespace Numeral

/-- Neither a digit nor a point stands where the exponent begins. -/
theorem exponent_head (n : Numeral) {c : CodePoint} {cs : Text}
    (h : n.exponent?.elim [] Exponent.spelling = c :: cs) : c.isDigit = false ∧ c ≠ '.' := by
  cases hx : n.exponent? with
  | none => rw [hx] at h; cases h
  | some x =>
      rw [hx] at h
      cases h
      rcases x.isMark with hm | hm
      · rw [hm]
        decide
      · rw [hm]
        decide

/-- No digit follows the digits in front of the point. -/
theorem tail_head (n : Numeral) {c : CodePoint} {cs : Text} (h : n.tail = c :: cs) :
    c.isDigit = false := by
  rw [tail] at h
  cases hf : n.fraction? with
  | none =>
      rw [hf] at h
      exact (n.exponent_head h).1
  | some f =>
      rw [hf] at h
      cases h
      decide

/-- The digits up to the point are the whole part. -/
theorem takeWhile_spelling (n : Numeral) :
    n.spelling.takeWhile CodePoint.isDigit = n.whole := by
  rw [spelling_eq]
  exact takeWhile_digits n.isDigits fun c cs h => n.tail_head h

/-- A numeral is digits alone when nothing follows them. -/
theorem isInteger_iff (n : Numeral) : n.IsInteger ↔ n.tail = [] := by
  rw [IsInteger, tail, List.append_eq_nil_iff]
  cases n.fraction? <;> cases n.exponent? <;> simp [Exponent.spelling]

/-- An integer is read unless it has too many digits. -/
theorem numeral_of_isInteger {n : Numeral} (h : n.IsInteger) :
    Lexeme.numeral n.spelling
      = if n.whole.length ≤ maxIntegerDigits then .ok (.integer (Text.digitsValue n.whole))
        else .error (.oversized n.whole.length) := by
  unfold Lexeme.numeral
  simp only [n.takeWhile_spelling]
  rw [spelling_eq, n.isInteger_iff.1 h, List.append_nil, List.drop_length]
  rfl

/-- A numeral with a point or an exponent is read as a float. -/
theorem numeral_of_not_isInteger {n : Numeral} (h : ¬ n.IsInteger) :
    Lexeme.numeral n.spelling
      = .ok (.float (.ofDecimal (Text.digitsValue (n.whole ++ n.fraction))
          (n.power - n.fraction.length))) := by
  have htail : n.tail.isEmpty = false := by
    rw [List.isEmpty_eq_false_iff]
    exact fun h0 => h (n.isInteger_iff.2 h0)
  have hpower : (if Text.starts '-' ((n.exponent?.elim [] Exponent.spelling).drop 1)
      then -(Text.digitsValue
        (((n.exponent?.elim [] Exponent.spelling).drop 1).filter CodePoint.isDigit) : Int)
      else Text.digitsValue
        (((n.exponent?.elim [] Exponent.spelling).drop 1).filter CodePoint.isDigit)) = n.power := by
    rw [power]
    cases n.exponent? with
    | none => rfl
    | some x => exact x.power_eq
  unfold Lexeme.numeral
  simp only [n.takeWhile_spelling]
  rw [spelling_eq, List.drop_left, if_neg (by rw [htail]; decide)]
  cases hf : n.fraction? with
  | none =>
      have hstart : Text.starts '.' n.tail = false := by
        cases ht : n.tail with
        | nil => rfl
        | cons c cs =>
            rw [tail, hf] at ht
            exact decide_eq_false (n.exponent_head ht).2
      simp only [hstart, Bool.false_eq_true, if_false, List.length_nil, List.drop_zero]
      rw [tail, hf, Option.elim_none, List.nil_append, hpower, fraction, hf]
      rfl
  | some f =>
      have htail : n.tail
          = CodePoint.ofChar '.' :: (f ++ n.exponent?.elim [] Exponent.spelling) := by
        rw [tail, hf]
        rfl
      have hfraction : (f ++ n.exponent?.elim [] Exponent.spelling).takeWhile CodePoint.isDigit
          = f := takeWhile_digits (n.isFraction f hf) fun c cs h => (n.exponent_head h).1
      have hstart : Text.starts '.' n.tail = true := by
        rw [htail]
        exact decide_eq_true (p := CodePoint.ofChar '.' = CodePoint.ofChar '.') rfl
      have hdrop : n.tail.drop 1 = f ++ n.exponent?.elim [] Exponent.spelling := by
        rw [htail, List.drop_succ_cons, List.drop_zero]
      simp only [hstart, if_true, hdrop, hfraction, List.drop_left]
      rw [hpower, fraction, hf]
      rfl

/-- The value that is read for a numeral is the number that it denotes. -/
theorem numeral_eq_ok {n : Numeral} {v : Number} :
    Lexeme.numeral n.spelling = .ok v
      ↔ n.Denotes v ∧ (n.IsInteger → n.whole.length ≤ maxIntegerDigits) := by
  by_cases hint : n.IsInteger
  · have hvalue : n.value = Text.digitsValue n.whole := by
      simp [value, fraction, power, hint.1, hint.2]
    rw [numeral_of_isInteger hint]
    by_cases hlen : n.whole.length ≤ maxIntegerDigits
    · rw [if_pos hlen]
      cases v with
      | integer k =>
          simp only [Denotes, Except.ok.injEq, Number.integer.injEq, hvalue, hint, hlen, true_and,
            Nat.cast_inj, implies_true, and_true]
          exact eq_comm
      | float x => simp [Denotes, hint]
    · rw [if_neg hlen]
      simp [hint, hlen]
  · rw [numeral_of_not_isInteger hint]
    have hnear := Binary64.nearest_ofDecimal (Text.digitsValue (n.whole ++ n.fraction))
      (n.power - n.fraction.length)
    cases v with
    | integer k => simp [Denotes, hint]
    | float x =>
        simp only [Denotes, Except.ok.injEq, Number.float.injEq, hint, not_false_eq_true, true_and,
          false_imp_iff, and_true]
        constructor
        · rintro rfl
          exact hnear
        · intro hx
          exact hnear.unique hx

/-- A numeral is refused when it is digits alone and too many of them. -/
theorem numeral_eq_error {n : Numeral} {e : ExprError} :
    Lexeme.numeral n.spelling = .error e
      ↔ n.IsInteger ∧ maxIntegerDigits < n.whole.length ∧ e = .oversized n.whole.length := by
  by_cases hint : n.IsInteger
  · rw [numeral_of_isInteger hint]
    by_cases hlen : n.whole.length ≤ maxIntegerDigits
    · rw [if_pos hlen]
      simp only [reduceCtorEq, false_iff]
      rintro ⟨-, hlt, -⟩
      omega
    · rw [if_neg hlen, Except.error.injEq]
      exact ⟨fun h => ⟨hint, Nat.not_le.1 hlen, h.symm⟩, fun h => h.2.2.symm⟩
  · rw [numeral_of_not_isInteger hint]
    simp [hint]

end Numeral

end KeyHarvest
