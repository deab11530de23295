/-
Shortest decimals are read back. The reals that round to a floating-point
number lie between the middles to its two neighbours, and the middles
themselves belong to it when its significand is even (`Rounds`). The test
that the search for the fewest digits makes is membership in this interval
(`reads_iff`), whatever numbers of digits it tries and whichever of two
candidates it takes, so the decimal that it ends with is worth the number
it began with (`shortest_nearest`, `ofDecimal_shortest`).

The lower neighbour of a number is half as far away where the spacing
narrows, that is below the powers of two above the least exponent.
-/
import KeyHarvest.Proofs.Number.Nearest

namespace KeyHarvest.Binary64

/-- The rational number that a decimal is. -/
def Decimal.value (d : Decimal) : ℚ := d.digits * 10 ^ d.exponent

-- ========================================================== intervals

/-- The distance to the next smaller number. -/
def stepBelow (m : Nat) (q : Int) : ℚ :=
  if m = pow2 52 ∧ -1074 < q then 2 ^ q / 2 else 2 ^ q

/-- A rational number is no farther away than the middles to the two
neighbours of `m · 2^q`, and a middle only when `m` is even. -/
structure Rounds (v : ℚ) (m : Nat) (q : Int) : Prop where
  low : worth m q - stepBelow m q / 2 ≤ v
  high : v ≤ worth m q + 2 ^ q / 2
  even : v = worth m q - stepBelow m q / 2 ∨ v = worth m q + 2 ^ q / 2 → m % 2 = 0

section

variable {m m' : Nat} {q q' : Int}

theorem worth_succ (m : Nat) (q : Int) : worth (m + 1) q = worth m q + 2 ^ q := by
  unfold worth
  push_cast
  ring

theorem stepBelow_le (m : Nat) (q : Int) : stepBelow m q ≤ 2 ^ q := by
  have hq := two_zpow_pos q
  unfold stepBelow
  split <;> linarith

theorem stepBelow_pos (m : Nat) (q : Int) : 0 < stepBelow m q := by
  have hq := two_zpow_pos q
  unfold stepBelow
  split <;> linarith

/-- Below a power of two the spacing is half as wide, and the largest number
on the finer grid comes next. -/
theorem worth_pow2_sub (q : Int) : worth (2 ^ 52) q - 2 ^ q / 2 = worth (2 ^ 53 - 1) (q - 1) := by
  have hhalf : (2 : ℚ) ^ q = 2 * 2 ^ (q - 1) := by
    rw [zpow_sub_one₀ (by norm_num)]
    ring
  rw [worth, worth, hhalf]
  push_cast
  ring

/-- Below a number there is nothing before the next smaller one. -/
theorem worth_le_sub_stepBelow (h : IsCanonical m q) (h' : IsCanonical m' q')
    (hlt : worth m' q' < worth m q) : worth m' q' ≤ worth m q - stepBelow m q := by
  rcases le_or_gt q q' with hq | hq
  · -- on a grid that is no finer the next point is a whole step away
    have hnext := worth_succ_le h' h hlt
    rw [worth_succ] at hnext
    have hstep : stepBelow m q ≤ 2 ^ q' :=
      (stepBelow_le m q).trans (zpow_le_zpow_right₀ (by norm_num) hq)
    linarith
  · have hleast := h'.least
    have hgreatest := h.greatest
    have hleading : 2 ^ 52 ≤ m := h.leading.resolve_right (by omega)
    by_cases hpow : m = 2 ^ 52
    · subst hpow
      have hcanonical : IsCanonical (2 ^ 53 - 1) (q - 1) :=
        ⟨by norm_num, by omega, by omega, .inl (by norm_num)⟩
      rw [stepBelow, if_pos ⟨rfl, by omega⟩, worth_pow2_sub]
      rcases eq_or_lt_of_le (show q' ≤ q - 1 by omega) with rfl | hfiner
      · exact worth_le_worth (Nat.le_sub_one_of_lt h'.bits)
      · exact (worth_lt_of_exponent_lt h' hcanonical hfiner).le
    · obtain ⟨k, rfl⟩ : ∃ k, m = k + 1 := ⟨m - 1, by omega⟩
      have hcanonical : IsCanonical (2 ^ 52) q :=
        ⟨by norm_num, h.least, h.greatest, .inl (le_refl _)⟩
      have hbelow := worth_lt_of_exponent_lt h' hcanonical hq
      have hbetween : worth (2 ^ 52) q ≤ worth k q := worth_le_worth (by omega)
      have hstep := stepBelow_le (k + 1) q
      rw [worth_succ]
      linarith

/-- The upper end of an interval is at most the limit, and below it where it
belongs to the interval. -/
theorem Rounds.lt_limit {v : ℚ} (h : Rounds v m q) (hc : IsCanonical m q) : v < limit := by
  have hq := two_zpow_pos q
  have hend : ∀ n : Nat, n < 2 ^ 53 → worth n q + 2 ^ q / 2 ≤ limit := by
    intro n hn
    have hn' : ((n + 1 : Nat) : ℚ) ≤ ((2 ^ 53 : Nat) : ℚ) := Nat.cast_le.2 hn
    push_cast at hn'
    calc worth n q + 2 ^ q / 2 = (n + 1 / 2) * 2 ^ q := by rw [worth]; ring
      _ ≤ (2 ^ 53 - 1 / 2) * 2 ^ q := mul_le_mul_of_nonneg_right (by linarith) hq.le
      _ ≤ (2 ^ 53 - 1 / 2) * 2 ^ (971 : Int) :=
          mul_le_mul_of_nonneg_left (zpow_le_zpow_right₀ (by norm_num) hc.greatest) (by norm_num)
      _ = limit := limit_eq.symm
  have hbits := hc.bits
  rcases eq_or_lt_of_le h.high with heq | hlt
  · -- an even significand is not the largest one
    have heven := h.even (.inr heq)
    have hnext := hend (m + 1) (by omega)
    rw [worth_succ] at hnext
    linarith
  · exact hlt.trans_le (hend m hbits)

/-- To the numbers of an interval none is nearer. -/
theorem Rounds.nearest {v : ℚ} (h : Rounds v m q) (hc : IsCanonical m q) :
    Nearest v (.finite m q) := by
  refine ⟨h.lt_limit hc, hc, fun m' q' hc' => ?_⟩
  have hq := two_zpow_pos q
  have hstep := stepBelow_pos m q
  have hlow := h.low
  have hhigh := h.high
  rcases lt_trichotomy (worth m' q') (worth m q) with hlt | heq | hlt
  · have hgap := worth_le_sub_stepBelow hc hc' hlt
    rw [abs_of_nonneg (by linarith : 0 ≤ v - worth m' q')]
    rcases abs_cases (v - worth m q) with ⟨habs, -⟩ | ⟨habs, -⟩
    · rw [habs]
      exact ⟨by linarith, fun heq => absurd heq (by linarith)⟩
    · rw [habs]
      exact ⟨by linarith, fun heq => .inr (h.even (.inl (by linarith)))⟩
  · rw [heq]
    exact ⟨le_refl _, fun _ => .inl rfl⟩
  · have hgap := worth_succ_le hc hc' hlt
    rw [worth_succ] at hgap
    rw [abs_of_nonpos (by linarith : v - worth m' q' ≤ 0)]
    rcases abs_cases (v - worth m q) with ⟨habs, -⟩ | ⟨habs, -⟩
    · rw [habs]
      exact ⟨by linarith, fun heq => .inr (h.even (.inr (by linarith)))⟩
    · rw [habs]
      exact ⟨by linarith, fun heq => absurd heq (by linarith)⟩

theorem rounds_worth (m : Nat) (q : Int) : Rounds (worth m q) m q := by
  have hq := two_zpow_pos q
  have hstep := stepBelow_pos m q
  refine ⟨by linarith, by linarith, ?_⟩
  rintro (heq | heq) <;> linarith

-- ============================================================ reading

/-- Multiplied out, the comparisons of the test are comparisons with the
value of the decimal. -/
theorem scaled_le (a : Nat) (q : Int) (d : Decimal) :
    (a * (pow2 q * pow10 (-d.exponent)) ≤ 4 * d.digits * pow10 d.exponent * pow2 (-q)
        ↔ (a : ℚ) / 4 * 2 ^ q ≤ d.value)
      ∧ (4 * d.digits * pow10 d.exponent * pow2 (-q) ≤ a * (pow2 q * pow10 (-d.exponent))
        ↔ d.value ≤ (a : ℚ) / 4 * 2 ^ q) := by
  have htwo : (0 : ℚ) < pow2 (-q) := by exact_mod_cast pow2_pos (-q)
  have hten : (0 : ℚ) < pow10 (-d.exponent) := by exact_mod_cast pow10_pos (-d.exponent)
  have hunit : (0 : ℚ) < 4 * (pow2 (-q) * pow10 (-d.exponent)) := by positivity
  have hend : ((a * (pow2 q * pow10 (-d.exponent)) : Nat) : ℚ)
      = (a : ℚ) / 4 * 2 ^ q * (4 * (pow2 (-q) * pow10 (-d.exponent))) := by
    rw [← pow2_div q]
    push_cast
    field_simp
  have hvalue : ((4 * d.digits * pow10 d.exponent * pow2 (-q) : Nat) : ℚ)
      = d.value * (4 * (pow2 (-q) * pow10 (-d.exponent))) := by
    rw [Decimal.value, ← pow10_div d.exponent]
    push_cast
    field_simp
  constructor
  · rw [← @Nat.cast_le ℚ, hend, hvalue, mul_le_mul_iff_left₀ hunit]
  · rw [← @Nat.cast_le ℚ, hend, hvalue, mul_le_mul_iff_left₀ hunit]

/-- The ends of the interval, in units of a quarter of `2^q`. -/
theorem interval_ends (hm : 0 < m) (q : Int) :
    ((interval m q).1 : ℚ) / 4 * 2 ^ q = worth m q - stepBelow m q / 2
      ∧ ((interval m q).2 : ℚ) / 4 * 2 ^ q = worth m q + 2 ^ q / 2 := by
  constructor
  · rw [interval, stepBelow, worth]
    split
    · rw [Nat.cast_sub (by omega)]
      push_cast
      ring
    · rw [Nat.cast_sub (by omega)]
      push_cast
      ring
  · rw [interval, worth]
    push_cast
    ring

/-- The test for a decimal is whether its value lies in the interval. -/
theorem reads_iff (hm : 0 < m) {d : Decimal} : reads m q d = true ↔ Rounds d.value m q := by
  obtain ⟨hfrom, hto⟩ := interval_ends hm q
  have hlow := scaled_le (interval m q).1 q d
  have hhigh := scaled_le (interval m q).2 q d
  rw [hfrom] at hlow
  rw [hto] at hhigh
  unfold reads
  dsimp only
  split
  · next heven =>
      rw [Bool.and_eq_true, decide_eq_true_eq, decide_eq_true_eq, hlow.1, hhigh.2]
      exact ⟨fun ⟨hl, hh⟩ => ⟨hl, hh, fun _ => heven⟩, fun h => ⟨h.low, h.high⟩⟩
  · next hodd =>
      rw [Bool.and_eq_true, decide_eq_true_eq, decide_eq_true_eq, ← not_le, ← not_le, hlow.2,
        hhigh.1, not_le, not_le]
      constructor
      · rintro ⟨hl, hh⟩
        exact ⟨hl.le, hh.le, fun h => h.elim (fun h => absurd h hl.ne') (fun h => absurd h hh.ne)⟩
      · intro h
        exact ⟨lt_of_le_of_ne h.low fun heq => hodd (h.even (.inl heq.symm)),
          lt_of_le_of_ne h.high fun heq => hodd (h.even (.inr heq))⟩

end

-- ======================================================== the search

theorem roundDiv_eq (num den : Nat) :
    roundDiv num den = num / den ∨ roundDiv num den = num / den + 1 := by
  unfold roundDiv
  dsimp only
  split
  · exact .inl rfl
  · split
    · exact .inr rfl
    · split
      · exact .inl rfl
      · exact .inr rfl

/-- A candidate has passed the test, as itself or as one of the two
neighbours that it is chosen from. -/
theorem reads_of_candidate {m count : Nat} {q : Int} {d : Decimal}
    (h : candidate m q count = some d) : reads m q d = true := by
  unfold candidate at h
  dsimp only at h
  generalize leadingDigit m q - (count - 1) = s at h
  generalize m * pow2 q * pow10 (-s) = num at h
  generalize pow2 (-q) * pow10 s = den at h
  split at h
  · next hboth =>
      obtain ⟨hbelow, habove⟩ := Bool.and_eq_true_iff.1 hboth
      obtain rfl := Option.some.inj h
      rcases roundDiv_eq num den with heq | heq
      · rw [heq]
        exact hbelow
      · rw [heq]
        exact habove
  · split at h
    · next hbelow => exact Option.some.inj h ▸ hbelow
    · split at h
      · next habove => exact Option.some.inj h ▸ habove
      · cases h

/-- Zeros at the end of the digits count for nothing. -/
theorem Decimal.value_strip (d : Decimal) : d.strip.value = d.value := by
  induction d using Decimal.strip.induct with
  | case1 d h ih =>
      rw [Decimal.strip, dif_pos h, ih]
      have hdigits : (d.digits : ℚ) = (d.digits / 10 : Nat) * 10 := by
        exact_mod_cast (Nat.div_mul_cancel (Nat.dvd_of_mod_eq_zero h.2)).symm
      rw [Decimal.value, Decimal.value, hdigits, zpow_add_one₀ (by norm_num)]
      ring
  | case2 d h => rw [Decimal.strip, dif_neg h]

/-- The full expansion is the number itself. -/
theorem value_expansion (m : Nat) (q : Int) :
    Decimal.value ⟨m * pow2 q * Nat.pow 5 (-q).toNat, min q 0⟩ = worth m q := by
  unfold Decimal.value worth
  push_cast
  rw [cast_pow2]
  rcases le_total 0 q with hq | hq
  · obtain ⟨k, rfl⟩ := Int.eq_ofNat_of_zero_le hq
    have hnone : (-(k : Int)).toNat = 0 := by omega
    rw [min_eq_right hq, hnone]
    simp
  · obtain ⟨k, hk⟩ := Int.eq_ofNat_of_zero_le (Int.neg_nonneg_of_nonpos hq)
    obtain rfl : q = -(k : Int) := by omega
    have hnone : (-(k : Int)).toNat = 0 := by omega
    have hten : (10 : ℚ) ^ k = 2 ^ k * 5 ^ k := by
      rw [← mul_pow]
      norm_num
    rw [min_eq_left hq, hnone, neg_neg, Int.toNat_natCast, zpow_neg, zpow_neg, zpow_natCast,
      zpow_natCast, hten]
    have htwo : (2 : ℚ) ^ k ≠ 0 := by positivity
    have hfive : (5 : ℚ) ^ k ≠ 0 := by positivity
    simp only [pow_zero, mul_one, mul_inv_rev, Nat.pow_eq, Nat.cast_pow, Nat.cast_ofNat]
    field_simp

/-- The number nearest to its shortest decimal is the number. -/
theorem shortest_nearest {m : Nat} {q : Int} (h : IsCanonical m q) :
    Nearest (shortest m q).value (.finite m q) := by
  unfold shortest
  split
  · next hm =>
      subst hm
      obtain rfl : q = -1074 := h.leading.resolve_left (by norm_num)
      exact nearest_zero (by simp [Decimal.value])
        (by rw [Decimal.value, Nat.cast_zero, zero_mul]; exact two_zpow_pos _)
  · next hm =>
      split
      · next d hd =>
          obtain ⟨i, -, hi⟩ := List.exists_of_findSome?_eq_some hd
          rw [Decimal.value_strip]
          exact ((reads_iff (Nat.pos_of_ne_zero hm)).1 (reads_of_candidate hi)).nearest h
      · rw [value_expansion]
        exact (rounds_worth m q).nearest h

/-- The shortest decimal of a number is read as the number. -/
theorem ofDecimal_shortest {m : Nat} {q : Int} (h : IsCanonical m q) :
    ofDecimal (shortest m q).digits (shortest m q).exponent = .finite m q :=
  (nearest_ofDecimal _ _).unique (shortest_nearest h)

end KeyHarvest.Binary64
