/-
What a decimal numeral is worth as a floating-point number. A literal with
a point or an exponent denotes a rational number, and its value is the
binary number nearest to that, of two equally near the one with the even
significand; from half a unit beyond the largest one on it is infinite
(`Nearest`). There is one such number for every rational one
(`Nearest.unique`), and reading a decimal gives it (`nearest_ofDecimal`).

# The argument

The exponent is chosen so that the fraction has 53 bits before the point,
or fewer at the least exponent. On the grid of that exponent rounding the
quotient finds the nearest point (`roundDiv_nearest`). A coarser grid is
part of it, and a finer one ends below the fraction, so no other number
comes nearer (`significand_nearest_all`).
-/
import KeyHarvest.Number.Binary64
import Mathlib.Algebra.Order.Field.Power
import Mathlib.Algebra.Order.Field.Rat
import Mathlib.Data.Nat.Log
import Mathlib.Tactic.FieldSimp
import Mathlib.Tactic.Linarith
import Mathlib.Tactic.NormNum.Pow
import Mathlib.Tactic.Positivity
import Mathlib.Tactic.Ring

namespace KeyHarvest.Binary64

/-- The rational number `m · 2^q`. -/
def worth (m : Nat) (q : Int) : ℚ := m * 2 ^ q

/-- The significands and exponents that are in use: 53 bits, and fewer at
the least exponent only. -/
structure IsCanonical (m : Nat) (q : Int) : Prop where
  bits : m < 2 ^ 53
  least : -1074 ≤ q
  greatest : q ≤ 971
  leading : 2 ^ 52 ≤ m ∨ q = -1074

/-- From half a unit beyond the largest finite number on, numbers are
infinite. -/
def limit : ℚ := 2 ^ 1024 - 2 ^ 970

/-- The number nearest to a rational one; of two equally near the one with
the even significand. -/
def Nearest (v : ℚ) : Binary64 → Prop
  | .infinite => limit ≤ v
  | .finite m q => v < limit ∧ IsCanonical m q ∧ ∀ m' q', IsCanonical m' q' →
      |v - worth m q| ≤ |v - worth m' q'|
        ∧ (|v - worth m q| = |v - worth m' q'| → worth m' q' = worth m q ∨ m % 2 = 0)

-- ============================================================== grids

theorem two_zpow_pos (q : Int) : (0 : ℚ) < 2 ^ q := zpow_pos (by norm_num) q

theorem worth_lt_worth {m m' : Nat} {q : Int} (h : m < m') : worth m q < worth m' q := by
  unfold worth
  have hq := two_zpow_pos q
  have hm : (m : ℚ) < m' := by exact_mod_cast h
  exact mul_lt_mul_of_pos_right hm hq

theorem worth_le_worth {m m' : Nat} {q : Int} (h : m ≤ m') : worth m q ≤ worth m' q := by
  unfold worth
  have hq := two_zpow_pos q
  have hm : (m : ℚ) ≤ m' := by exact_mod_cast h
  exact mul_le_mul_of_nonneg_right hm hq.le

/-- A number is on every finer grid. -/
theorem worth_add (m : Nat) (q : Int) (k : Nat) : worth m (q + k) = worth (m * 2 ^ k) q := by
  unfold worth
  rw [zpow_add₀ (by norm_num), zpow_natCast]
  push_cast
  ring

/-- A number on a coarser grid than another one is larger. -/
theorem worth_lt_of_exponent_lt {m m' : Nat} {q q' : Int} (h : IsCanonical m q)
    (h' : IsCanonical m' q') (hq : q < q') : worth m q < worth m' q' := by
  obtain ⟨k, rfl⟩ : ∃ k : Nat, q' = q + ((k + 1 : Nat) : Int) := by
    refine ⟨(q' - q - 1).toNat, ?_⟩
    have hleast := h.least
    omega
  have hleading : 2 ^ 52 ≤ m' := by
    rcases h'.leading with hm | hl
    · exact hm
    · have hleast := h.least
      omega
  rw [worth_add]
  apply worth_lt_worth
  calc m < 2 ^ 53 := h.bits
    _ = 2 ^ 52 * 2 ^ 1 := by norm_num
    _ ≤ m' * 2 ^ (k + 1) := Nat.mul_le_mul hleading (Nat.pow_le_pow_right (by norm_num) (by omega))

/-- Above a number there is nothing before the next one on its grid. -/
theorem worth_succ_le {m m' : Nat} {q q' : Int} (h : IsCanonical m q) (h' : IsCanonical m' q')
    (hlt : worth m q < worth m' q') : worth (m + 1) q ≤ worth m' q' := by
  rcases lt_or_ge q' q with hq | hq
  · exact absurd (worth_lt_of_exponent_lt h' h hq) (not_lt.2 hlt.le)
  · obtain ⟨k, rfl⟩ : ∃ k : Nat, q' = q + (k : Int) := ⟨(q' - q).toNat, by omega⟩
    rw [worth_add] at hlt ⊢
    apply worth_le_worth
    by_contra hle
    exact absurd (worth_le_worth (q := q) (by omega : m' * 2 ^ k ≤ m)) (not_le.2 hlt)

theorem IsCanonical.unique {m m' : Nat} {q q' : Int} (h : IsCanonical m q) (h' : IsCanonical m' q')
    (heq : worth m q = worth m' q') : m = m' ∧ q = q' := by
  obtain rfl : q = q' := by
    rcases lt_trichotomy q q' with hq | hq | hq
    · exact absurd heq (worth_lt_of_exponent_lt h h' hq).ne
    · exact hq
    · exact absurd heq.symm (worth_lt_of_exponent_lt h' h hq).ne
  refine ⟨?_, rfl⟩
  rcases lt_trichotomy m m' with hm | hm | hm
  · exact absurd heq (worth_lt_worth hm).ne
  · exact hm
  · exact absurd heq.symm (worth_lt_worth hm).ne

-- ========================================================= uniqueness

/-- Of two numbers with even significands none is nearest to the middle
between them. -/
theorem not_nearest_middle {v : ℚ} {m m' : Nat} {q q' : Int} (h : Nearest v (.finite m q))
    (h' : IsCanonical m' q') (hlt : worth m q < worth m' q') (heven : m % 2 = 0)
    (heven' : m' % 2 = 0) (hmid : |v - worth m q| = |v - worth m' q'|) : False := by
  obtain ⟨-, hc, hbest⟩ := h
  have hv : v - worth m q = worth m' q' - v := by
    rcases abs_eq_abs.1 hmid with heq | heq
    · exact absurd (by linarith : worth m q = worth m' q') hlt.ne
    · linarith
  -- the next number on the grid is odd, so it lies strictly between
  have hsucc : IsCanonical (m + 1) q :=
    ⟨by have := hc.bits; omega, hc.least, hc.greatest, hc.leading.imp (by omega) id⟩
  have hle := worth_succ_le hc h' hlt
  have hne : worth (m + 1) q ≠ worth m' q' := by
    intro heq
    obtain ⟨rfl, -⟩ := hsucc.unique h' heq
    omega
  have hlow := worth_lt_worth (q := q) (Nat.lt_succ_self m)
  have hhigh := lt_of_le_of_ne hle hne
  have hnear := (hbest (m + 1) q hsucc).1
  have hpos : 0 < v - worth m q := by linarith
  rw [abs_of_pos hpos] at hnear
  rcases abs_cases (v - worth (m + 1) q) with ⟨habs, -⟩ | ⟨habs, -⟩ <;> linarith

/-- There is one nearest number. -/
theorem Nearest.unique {v : ℚ} {x y : Binary64} (hx : Nearest v x) (hy : Nearest v y) : x = y := by
  cases x with
  | infinite =>
      cases y with
      | infinite => rfl
      | finite m q => exact absurd hy.1 (not_lt.2 hx)
  | finite m q =>
      cases y with
      | infinite => exact absurd hx.1 (not_lt.2 hy)
      | finite m' q' =>
          have hc := hx.2.1
          have hc' := hy.2.1
          obtain ⟨hle, htie⟩ := hx.2.2 m' q' hc'
          obtain ⟨hle', htie'⟩ := hy.2.2 m q hc
          have hmid := le_antisymm hle hle'
          by_cases heq : worth m q = worth m' q'
          · obtain ⟨rfl, rfl⟩ := hc.unique hc' heq
            rfl
          · have heven := (htie hmid).resolve_left fun h => heq h.symm
            have heven' := (htie' hmid.symm).resolve_left heq
            rcases lt_or_gt_of_ne heq with hlt | hlt
            · exact (not_nearest_middle hx hc' hlt heven heven' hmid).elim
            · exact (not_nearest_middle hy hc hlt heven' heven hmid.symm).elim


-- =========================================================== rounding

/-- Rounding a quotient goes to the nearest natural number, and halfway to
the even one. -/
theorem roundDiv_near (num : Nat) {den : Nat} (hden : 0 < den) :
    |(num : ℚ) / den - roundDiv num den| ≤ 1 / 2
      ∧ (|(num : ℚ) / den - roundDiv num den| = 1 / 2 → roundDiv num den % 2 = 0) := by
  have hden' : (0 : ℚ) < den := by exact_mod_cast hden
  have hsplit : (num : ℚ) / den = (num / den : Nat) + ((num % den : Nat) : ℚ) / den := by
    have hnat : (num : ℚ) = (num / den : Nat) * den + (num % den : Nat) := by
      exact_mod_cast (Nat.div_add_mod' num den).symm
    rw [eq_comm, ← sub_eq_zero]
    field_simp
    linarith
  have hlow : (0 : ℚ) ≤ ((num % den : Nat) : ℚ) / den := by positivity
  have hhigh : ((num % den : Nat) : ℚ) / den < 1 := by
    rw [div_lt_one hden']
    exact_mod_cast Nat.mod_lt num hden
  unfold roundDiv
  dsimp only
  rw [hsplit]
  split
  · -- less than half of a step is left: down
    next hr =>
      have hhalf : ((num % den : Nat) : ℚ) / den < 1 / 2 := by
        rw [div_lt_div_iff₀ hden' (by norm_num)]
        have : ((2 * (num % den) : Nat) : ℚ) < den := by exact_mod_cast hr
        push_cast at this
        linarith
      rw [add_sub_cancel_left, abs_of_nonneg hlow]
      exact ⟨hhalf.le, fun h => absurd h hhalf.ne⟩
  · next hr =>
      split
      · -- more than half: up
        next hr' =>
          have hhalf : 1 / 2 < ((num % den : Nat) : ℚ) / den := by
            rw [div_lt_div_iff₀ (by norm_num) hden']
            have : (den : ℚ) < ((2 * (num % den) : Nat) : ℚ) := by exact_mod_cast hr'
            push_cast at this
            linarith
          push_cast
          rw [add_sub_add_left_eq_sub, abs_of_neg (by linarith)]
          exact ⟨by linarith, fun h => by linarith⟩
      · -- exactly half: to the even side
        next hr' =>
          have hhalf : ((num % den : Nat) : ℚ) / den = 1 / 2 := by
            rw [div_eq_div_iff hden'.ne' (by norm_num)]
            have : ((2 * (num % den) : Nat) : ℚ) = den := by
              exact_mod_cast le_antisymm (not_lt.1 hr') (not_lt.1 hr)
            push_cast at this
            linarith
          rw [hhalf]
          split
          · next heven =>
              rw [add_sub_cancel_left, abs_of_pos (by norm_num)]
              exact ⟨le_refl _, fun _ => heven⟩
          · next hodd =>
              push_cast
              rw [add_sub_add_left_eq_sub, abs_of_neg (by norm_num)]
              exact ⟨by norm_num, fun _ => by omega⟩

/-- No other natural number is nearer than the rounded quotient, and one
that is as near leaves the even one. -/
theorem roundDiv_nearest (num : Nat) {den : Nat} (hden : 0 < den) (j : Nat) :
    |(num : ℚ) / den - roundDiv num den| ≤ |(num : ℚ) / den - j|
      ∧ (|(num : ℚ) / den - roundDiv num den| = |(num : ℚ) / den - j| →
        j = roundDiv num den ∨ roundDiv num den % 2 = 0) := by
  obtain ⟨hhalf, htie⟩ := roundDiv_near num hden
  generalize (num : ℚ) / den = s at *
  generalize roundDiv num den = m at *
  rcases eq_or_ne j m with rfl | hne
  · exact ⟨le_refl _, fun _ => .inl rfl⟩
  · -- two different natural numbers are at least one apart
    have hapart : 1 ≤ |(m : ℚ) - j| := by
      have : (1 : ℤ) ≤ |(m : ℤ) - j| := Int.one_le_abs (by omega)
      exact_mod_cast this
    have htriangle : |(m : ℚ) - j| ≤ |s - m| + |s - j| := by
      rw [abs_sub_comm s (m : ℚ)]
      exact abs_sub_le (m : ℚ) s j
    refine ⟨by linarith, fun heq => .inr (htie ?_)⟩
    linarith

-- ============================================================= powers

theorem cast_pow2 (k : Int) : ((pow2 k : Nat) : ℚ) = 2 ^ k.toNat := by
  unfold pow2
  exact_mod_cast rfl

/-- The two halves of a power of two. -/
theorem pow2_div (k : Int) : ((pow2 k : Nat) : ℚ) / (pow2 (-k) : Nat) = 2 ^ k := by
  rw [cast_pow2, cast_pow2, ← zpow_natCast, ← zpow_natCast, ← zpow_sub₀ (by norm_num)]
  congr 1
  omega

theorem cast_pow10 (k : Int) : ((pow10 k : Nat) : ℚ) = 10 ^ k.toNat := by
  unfold pow10
  exact_mod_cast rfl

theorem pow10_div (k : Int) : ((pow10 k : Nat) : ℚ) / (pow10 (-k) : Nat) = 10 ^ k := by
  rw [cast_pow10, cast_pow10, ← zpow_natCast, ← zpow_natCast, ← zpow_sub₀ (by norm_num)]
  congr 1
  omega

theorem pow2_pos (k : Int) : 0 < pow2 k := Nat.pow_pos (by decide)

theorem pow10_pos (k : Int) : 0 < pow10 k := Nat.pow_pos (by decide)

/-- A fraction lies between the power of two of its leading bit and the
next one. -/
theorem leadingBit_bounds {num den : Nat} (hnum : 0 < num) (hden : 0 < den) :
    (2 : ℚ) ^ leadingBit num den ≤ (num : ℚ) / den
      ∧ (num : ℚ) / den < 2 ^ (leadingBit num den + 1) := by
  have hnum' : (0 : ℚ) < num := by exact_mod_cast hnum
  have hden' : (0 : ℚ) < den := by exact_mod_cast hden
  set k : Int := (Nat.log2 num : Int) - (Nat.log2 den : Int) with hk
  have hlow : (2 : ℚ) ^ (k - 1) ≤ (num : ℚ) / den := by
    have h1 : (2 : ℚ) ^ (Nat.log2 num) ≤ num := by exact_mod_cast Nat.log2_self_le hnum.ne'
    have h2 : (den : ℚ) ≤ 2 ^ (Nat.log2 den + 1) := by exact_mod_cast Nat.lt_log2_self.le
    rw [le_div_iff₀ hden']
    calc (2 : ℚ) ^ (k - 1) * den ≤ 2 ^ (k - 1) * 2 ^ (Nat.log2 den + 1) :=
          mul_le_mul_of_nonneg_left h2 (two_zpow_pos _).le
      _ = 2 ^ (Nat.log2 num) := by
          rw [← zpow_natCast, ← zpow_natCast, ← zpow_add₀ (by norm_num)]
          congr 1
          push_cast
          omega
      _ ≤ num := h1
  have hhigh : (num : ℚ) / den < 2 ^ (k + 1) := by
    have h1 : (num : ℚ) < 2 ^ (Nat.log2 num + 1) := by exact_mod_cast Nat.lt_log2_self
    have h2 : (2 : ℚ) ^ (Nat.log2 den) ≤ den := by exact_mod_cast Nat.log2_self_le hden.ne'
    rw [div_lt_iff₀ hden']
    calc (num : ℚ) < 2 ^ (Nat.log2 num + 1) := h1
      _ = 2 ^ (k + 1) * 2 ^ (Nat.log2 den) := by
          rw [← zpow_natCast, ← zpow_natCast, ← zpow_add₀ (by norm_num)]
          congr 1
          push_cast
          omega
      _ ≤ 2 ^ (k + 1) * den := mul_le_mul_of_nonneg_left h2 (two_zpow_pos _).le
  -- the quotient of the bit lengths is right or one too large; a comparison of powers decides
  have htest : den * pow2 k ≤ num * pow2 (-k) ↔ (2 : ℚ) ^ k ≤ (num : ℚ) / den := by
    have hpow : (0 : ℚ) < (pow2 (-k) : Nat) := by exact_mod_cast pow2_pos (-k)
    rw [← pow2_div, div_le_div_iff₀ hpow hden', mul_comm den]
    exact_mod_cast Iff.rfl
  unfold leadingBit
  dsimp only
  rw [← hk]
  split
  · next h => exact ⟨htest.1 h, hhigh⟩
  · next h =>
      refine ⟨hlow, ?_⟩
      rw [sub_add_cancel]
      exact not_le.1 (mt htest.2 h)

-- ========================================================== fractions

theorem limit_eq : limit = (2 ^ 53 - 1 / 2) * 2 ^ (971 : Int) := by
  have hfirst : (2 : ℚ) ^ 1024 = 2 ^ 53 * 2 ^ 971 := by rw [← pow_add]
  have hsecond : (2 : ℚ) ^ 971 = 2 * 2 ^ 970 := by rw [← pow_succ']
  rw [limit, hfirst, show (971 : Int) = ((971 : Nat) : Int) from rfl, zpow_natCast, hsecond]
  generalize (2 : ℚ) ^ 970 = half
  ring

theorem limit_le : limit ≤ 2 ^ (1024 : Int) := by
  have hpos : (0 : ℚ) < 2 ^ 970 := by positivity
  rw [limit, show (1024 : Int) = ((1024 : Nat) : Int) from rfl, zpow_natCast]
  exact sub_le_self _ hpos.le

/-- In units of the largest exponent the limit is half a unit below `2^53`. -/
theorem limit_le_of_scaled {v : ℚ} {q : Int} (h : 2 ^ 53 - 1 / 2 ≤ v / 2 ^ q) (hq : 971 ≤ q) :
    limit ≤ v := by
  rw [le_div_iff₀ (two_zpow_pos q)] at h
  refine le_trans ?_ h
  rw [limit_eq]
  exact mul_le_mul_of_nonneg_left (zpow_le_zpow_right₀ (by norm_num) hq) (by norm_num)

theorem lt_limit_of_scaled {v : ℚ} {q : Int} (h : v / 2 ^ q < 2 ^ 53 - 1 / 2) (hq : q ≤ 971) :
    v < limit := by
  rw [div_lt_iff₀ (two_zpow_pos q)] at h
  refine lt_of_lt_of_le h ?_
  rw [limit_eq]
  exact mul_le_mul_of_nonneg_left (zpow_le_zpow_right₀ (by norm_num) hq) (by norm_num)

/-- Digits before the point, from a power of two above the number. -/
theorem scaled_lt {v : ℚ} {k q : Int} {n : Nat} (h : v < 2 ^ k) (hk : k ≤ n + q) :
    v / 2 ^ q < 2 ^ n := by
  rw [div_lt_iff₀ (two_zpow_pos q)]
  calc v < 2 ^ k := h
    _ ≤ 2 ^ ((n : Int) + q) := zpow_le_zpow_right₀ (by norm_num) hk
    _ = 2 ^ n * 2 ^ q := by rw [zpow_add₀ (by norm_num), zpow_natCast]

theorem le_scaled {v : ℚ} {k q : Int} {n : Nat} (h : 2 ^ k ≤ v) (hk : n + q ≤ k) :
    2 ^ n ≤ v / 2 ^ q := by
  rw [le_div_iff₀ (two_zpow_pos q)]
  calc (2 : ℚ) ^ n * 2 ^ q = 2 ^ ((n : Int) + q) := by rw [zpow_add₀ (by norm_num), zpow_natCast]
    _ ≤ 2 ^ k := zpow_le_zpow_right₀ (by norm_num) hk
    _ ≤ v := h

/-- A fraction in units of a power of two. -/
theorem scaled_eq (num den : Nat) (q : Int) :
    ((num * pow2 (-q) : Nat) : ℚ) / (den * pow2 q : Nat) = (num : ℚ) / den / 2 ^ q := by
  rw [← pow2_div q]
  push_cast
  rw [mul_div_mul_comm, div_eq_mul_inv ((num : ℚ) / den), inv_div]

section

variable {num den : Nat} {q : Int}

/-- The rounded significand of a fraction at an exponent. -/
def significand (num den : Nat) (q : Int) : Nat := roundDiv (num * pow2 (-q)) (den * pow2 q)

theorem abs_sub_worth (v : ℚ) (m : Nat) (q : Int) :
    |v - worth m q| = |v / 2 ^ q - m| * 2 ^ q := by
  have hq := two_zpow_pos q
  rw [← abs_of_pos hq, ← abs_mul, abs_of_pos hq, sub_mul, div_mul_cancel₀ _ hq.ne', worth]

/-- On the grid of an exponent nothing is nearer than the rounded
significand. -/
theorem significand_nearest (hden : 0 < den) (j : Nat) :
    |(num : ℚ) / den - worth (significand num den q) q| ≤ |(num : ℚ) / den - worth j q|
      ∧ (|(num : ℚ) / den - worth (significand num den q) q| = |(num : ℚ) / den - worth j q| →
        worth j q = worth (significand num den q) q ∨ significand num den q % 2 = 0) := by
  have hq := two_zpow_pos q
  obtain ⟨hle, htie⟩ := roundDiv_nearest (num * pow2 (-q)) (Nat.mul_pos hden (pow2_pos q)) j
  rw [scaled_eq, ← significand] at hle htie
  rw [abs_sub_worth, abs_sub_worth]
  refine ⟨mul_le_mul_of_nonneg_right hle hq.le, fun heq => ?_⟩
  exact (htie (mul_right_cancel₀ hq.ne' heq)).imp (fun h => by rw [h]) id

/-- The rounded significand is at most half a unit away, and even when it
is half a unit away. -/
theorem significand_near (hden : 0 < den) :
    |(num : ℚ) / den / 2 ^ q - significand num den q| ≤ 1 / 2
      ∧ (|(num : ℚ) / den / 2 ^ q - significand num den q| = 1 / 2 →
        significand num den q % 2 = 0) := by
  have h := roundDiv_near (num * pow2 (-q)) (Nat.mul_pos hden (pow2_pos q))
  rwa [scaled_eq, ← significand] at h

/-- The bits before the point are those of the rounded significand, or it
is a bit longer: then it carries, and is a power of two. -/
theorem significand_le (hden : 0 < den) {n : Nat} (h : (num : ℚ) / den / 2 ^ q < 2 ^ n) :
    significand num den q ≤ 2 ^ n := by
  have hnear := (abs_le.1 (@significand_near num den q hden).1).1
  have hlt : (significand num den q : ℚ) < ((2 ^ n + 1 : Nat) : ℚ) := by
    push_cast
    linarith
  exact Nat.le_of_lt_succ (Nat.cast_lt.1 hlt)

theorem le_significand (hden : 0 < den) {n : Nat} (h : 2 ^ n ≤ (num : ℚ) / den / 2 ^ q) :
    2 ^ n ≤ significand num den q := by
  have hnear := (abs_le.1 (@significand_near num den q hden).1).2
  have hlt : ((2 ^ n : Nat) : ℚ) < ((significand num den q + 1 : Nat) : ℚ) := by
    push_cast
    linarith
  exact Nat.le_of_lt_succ (Nat.cast_lt.1 hlt)

theorem le_scaled_of_carry (hden : 0 < den) (h : significand num den q = 2 ^ 53) :
    2 ^ 53 - 1 / 2 ≤ (num : ℚ) / den / 2 ^ q := by
  have hnear := (abs_le.1 (@significand_near num den q hden).1).1
  have hcast : (significand num den q : ℚ) = 2 ^ 53 := by
    rw [h]
    norm_num
  linarith

theorem scaled_lt_of_bits (hden : 0 < den) (h : significand num den q < 2 ^ 53) :
    (num : ℚ) / den / 2 ^ q < 2 ^ 53 - 1 / 2 := by
  obtain ⟨hhalf, htie⟩ := @significand_near num den q hden
  have hnear := (abs_le.1 hhalf).2
  have hcast : ((significand num den q + 1 : Nat) : ℚ) ≤ ((2 ^ 53 : Nat) : ℚ) := Nat.cast_le.2 h
  push_cast at hcast
  refine lt_of_le_of_ne (by linarith) fun heq => ?_
  -- halfway below the carry the significand is odd
  have hodd : significand num den q = 2 ^ 53 - 1 := by
    have hvalue : (significand num den q : ℚ) = ((2 ^ 53 - 1 : Nat) : ℚ) := by
      push_cast
      linarith
    exact Nat.cast_injective hvalue
  have heven := htie (by rw [abs_of_nonneg] <;> rw [heq, hodd] <;> norm_num)
  rw [hodd] at heven
  exact absurd heven (by decide)

/-- A fraction that has 53 bits before the point, or fewer at the least
exponent, is nearest to its rounded significand among all numbers. -/
theorem significand_nearest_all (hden : 0 < den) (hleast : -1074 ≤ q) (hgreatest : q ≤ 971)
    (hlow : q = -1074 ∨ (2 : ℚ) ^ 52 ≤ (num : ℚ) / den / 2 ^ q) {m' : Nat} {q' : Int}
    (h' : IsCanonical m' q') :
    |(num : ℚ) / den - worth (significand num den q) q| ≤ |(num : ℚ) / den - worth m' q'|
      ∧ (|(num : ℚ) / den - worth (significand num den q) q| = |(num : ℚ) / den - worth m' q'| →
        worth m' q' = worth (significand num den q) q ∨ significand num den q % 2 = 0) := by
  rcases le_or_gt q q' with hq | hq
  · obtain ⟨k, rfl⟩ : ∃ k : Nat, q' = q + (k : Int) := ⟨(q' - q).toNat, by omega⟩
    rw [worth_add]
    exact significand_nearest hden _
  · -- a finer grid ends below the fraction
    have hlow' : (2 : ℚ) ^ 52 ≤ (num : ℚ) / den / 2 ^ q := by
      rcases hlow with hlow | hlow
      · have hleast' := h'.least
        omega
      · exact hlow
    have hcanonical : IsCanonical (2 ^ 52) q := ⟨by norm_num, hleast, hgreatest, .inl (le_refl _)⟩
    have hbelow := worth_lt_of_exponent_lt h' hcanonical hq
    have habove : worth (2 ^ 52) q ≤ (num : ℚ) / den := by
      rw [le_div_iff₀ (two_zpow_pos q)] at hlow'
      rw [worth]
      push_cast
      exact hlow'
    have hnear := (@significand_nearest num den q hden (2 ^ 52)).1
    rw [abs_of_nonneg (sub_nonneg.2 habove)] at hnear
    have hfar : |(num : ℚ) / den - worth m' q'| = (num : ℚ) / den - worth m' q' :=
      abs_of_pos (sub_pos.2 (hbelow.trans_le habove))
    have hnearer := lt_of_le_of_lt hnear (sub_lt_sub_left hbelow ((num : ℚ) / den))
    rw [hfar]
    exact ⟨hnearer.le, fun heq => absurd heq hnearer.ne⟩

/-- Without a carry the rounded significand is one of 53 bits. -/
theorem nearest_significand (hden : 0 < den) (hleast : -1074 ≤ q) (hgreatest : q ≤ 971)
    (hlow : q = -1074 ∨ (2 : ℚ) ^ 52 ≤ (num : ℚ) / den / 2 ^ q)
    (hbits : significand num den q < 2 ^ 53) :
    Nearest ((num : ℚ) / den) (.finite (significand num den q) q) := by
  have hleading : 2 ^ 52 ≤ significand num den q ∨ q = -1074 :=
    hlow.symm.imp (le_significand hden) id
  exact ⟨lt_limit_of_scaled (scaled_lt_of_bits hden hbits) hgreatest,
    ⟨hbits, hleast, hgreatest, hleading⟩,
    fun _ _ h' => significand_nearest_all hden hleast hgreatest hlow h'⟩

/-- With a carry it is the first one on the next grid. -/
theorem nearest_carried (hden : 0 < den) (hleast : -1074 ≤ q) (hgreatest : q + 1 ≤ 971)
    (hlow : q = -1074 ∨ (2 : ℚ) ^ 52 ≤ (num : ℚ) / den / 2 ^ q)
    (hhigh : (num : ℚ) / den / 2 ^ (q + 1) < 2 ^ 52) (hcarry : significand num den q = 2 ^ 53) :
    Nearest ((num : ℚ) / den) (.finite (2 ^ 52) (q + 1)) := by
  have hworth : worth (2 ^ 52) (q + 1) = worth (significand num den q) q := by
    rw [hcarry]
    exact (worth_add (2 ^ 52) q 1).trans (by norm_num)
  refine ⟨lt_limit_of_scaled (hhigh.trans (by norm_num)) hgreatest,
    ⟨by norm_num, by omega, hgreatest, .inl (le_refl _)⟩, fun m' q' h' => ?_⟩
  rw [hworth]
  have hbest := significand_nearest_all hden hleast (by omega) hlow h'
  exact ⟨hbest.1, fun _ => .inr (by decide)⟩

end

/-- The fraction that is read is rounded to the nearest number. -/
theorem nearest_ofFraction {num den : Nat} (hnum : 0 < num) (hden : 0 < den) :
    Nearest ((num : ℚ) / den) (ofFraction num den) := by
  obtain ⟨hlow, hhigh⟩ := leadingBit_bounds hnum hden
  unfold ofFraction
  dsimp only
  set k := leadingBit num den
  set q := max (k - 52) (-1074) with hq
  rw [← significand]
  have hleast : -1074 ≤ q := le_max_right _ _
  -- the smallest exponent is reached, or the quotient has all its bits in front of the point
  have hbits : q = -1074 ∨ (2 : ℚ) ^ 52 ≤ (num : ℚ) / den / 2 ^ q := by
    rcases eq_or_lt_of_le hleast with heq | hlt
    · exact .inl heq.symm
    · exact .inr (le_scaled hlow (by omega))
  -- rounding up may carry into one bit more, and then the exponent is one larger
  by_cases hcarry : significand num den q = pow2 53
  · rw [if_pos hcarry]
    dsimp only
    split
    · next hbig =>
        exact limit_le_of_scaled (le_scaled_of_carry hden hcarry) (by omega)
    · next hbig =>
        exact nearest_carried hden hleast (by omega) hbits (scaled_lt hhigh (by omega)) hcarry
  · rw [if_neg hcarry]
    dsimp only
    have hle : significand num den q ≤ 2 ^ 53 := significand_le hden (scaled_lt hhigh (by omega))
    split
    · next hbig =>
        show limit ≤ (num : ℚ) / den
        calc limit ≤ 2 ^ (1024 : Int) := limit_le
          _ ≤ 2 ^ k := zpow_le_zpow_right₀ (by norm_num) (by omega)
          _ ≤ (num : ℚ) / den := hlow
    · next hbig =>
        exact nearest_significand hden hleast (by omega) hbits (lt_of_le_of_ne hle hcarry)

-- =========================================================== decimals

theorem digitCount_bounds {n : Nat} (hn : n ≠ 0) :
    10 ^ (digitCount n - 1) ≤ n ∧ n < 10 ^ digitCount n ∧ 0 < digitCount n := by
  have hpos : 0 < digitCount n := List.length_pos_iff.2 Nat.toDigits_ne_nil
  refine ⟨?_, ?_, hpos⟩
  · by_contra hlt
    by_cases hone : digitCount n = 1
    · rw [hone] at hlt
      norm_num at hlt
      exact hn hlt
    · have hle : digitCount n ≤ digitCount n - 1 :=
        (Nat.length_toDigits_le_iff (by decide) (by omega)).2 (not_le.1 hlt)
      omega
  · exact (Nat.length_toDigits_le_iff (by decide) hpos).1 (le_refl _)

/-- The nearest number to zero, and to all that is far too small. -/
theorem nearest_zero {v : ℚ} (hpos : 0 ≤ v) (hsmall : v < 2 ^ (-1076 : Int)) : Nearest v zero := by
  have hworth : worth 0 (-1074) = 0 := by
    unfold worth
    norm_num
  have hscaled : v / 2 ^ (-1074 : Int) < 2 ^ 0 := scaled_lt hsmall (by decide)
  refine ⟨?_, ⟨by decide, by decide, by decide, .inr rfl⟩, ?_⟩
  · exact lt_limit_of_scaled (hscaled.trans (by norm_num)) (by decide)
  · intro m' q' h'
    rw [hworth, sub_zero, abs_of_nonneg hpos]
    rcases Nat.eq_zero_or_pos m' with rfl | hm
    · have hzero : worth 0 q' = 0 := by
        unfold worth
        norm_num
      rw [hzero, sub_zero, abs_of_nonneg hpos]
      exact ⟨le_refl _, fun _ => .inl rfl⟩
    · have hstep : (2 : ℚ) ^ (-1074 : Int) ≤ worth m' q' := by
        calc (2 : ℚ) ^ (-1074 : Int) ≤ 2 ^ q' := zpow_le_zpow_right₀ (by norm_num) h'.least
          _ = worth 1 q' := by simp [worth]
          _ ≤ worth m' q' := worth_le_worth hm
      have hgap : (2 : ℚ) ^ (-1074 : Int) = 4 * 2 ^ (-1076 : Int) := by
        rw [show (-1074 : Int) = 2 + -1076 from rfl, zpow_add₀ (by norm_num)]
        norm_num
      rw [abs_sub_comm, abs_of_pos (by linarith)]
      exact ⟨by linarith, fun _ => .inr rfl⟩

/-- A decimal that is read is rounded to the nearest number. -/
theorem nearest_ofDecimal (n : Nat) (e : Int) : Nearest (n * 10 ^ e) (ofDecimal n e) := by
  have hten : (0 : ℚ) < 10 ^ e := zpow_pos (by norm_num) e
  unfold ofDecimal
  dsimp only
  by_cases hn : n = 0
  · subst hn
    rw [if_pos (by simp)]
    refine nearest_zero (by simp) ?_
    rw [Nat.cast_zero, zero_mul]
    exact two_zpow_pos _
  obtain ⟨hlow, hhigh, hcount⟩ := digitCount_bounds hn
  have hlow' : (10 : ℚ) ^ ((digitCount n : Int) - 1) ≤ n := by
    rw [show (digitCount n : Int) - 1 = ((digitCount n - 1 : Nat) : Int) by omega, zpow_natCast]
    exact_mod_cast hlow
  have hhigh' : (n : ℚ) < 10 ^ (digitCount n : Int) := by
    rw [zpow_natCast]
    exact_mod_cast hhigh
  by_cases hsmall : (digitCount n : Int) + e < -330
  · -- so small that it is rounded to zero whatever its digits are
    rw [if_pos (by simp [hsmall])]
    refine nearest_zero (by positivity) ?_
    calc (n : ℚ) * 10 ^ e < 10 ^ (digitCount n : Int) * 10 ^ e :=
          mul_lt_mul_of_pos_right hhigh' hten
      _ = 10 ^ ((digitCount n : Int) + e) := by rw [zpow_add₀ (by norm_num)]
      _ ≤ 10 ^ (-331 : Int) := zpow_le_zpow_right₀ (by norm_num) (by omega)
      _ ≤ 2 ^ (-1076 : Int) := by
          rw [zpow_neg, zpow_neg]
          refine inv_anti₀ (two_zpow_pos _) ?_
          exact_mod_cast (by decide +kernel : 2 ^ 1076 ≤ 10 ^ 331)
  · rw [if_neg (by simp [hn, hsmall])]
    split
    · next hlarge =>
        -- so large that it overflows whatever its digits are
        show limit ≤ _
        calc limit ≤ 2 ^ (1024 : Int) := limit_le
          _ ≤ 10 ^ (310 : Int) := by
              exact_mod_cast (by decide +kernel : 2 ^ 1024 ≤ 10 ^ 310)
          _ ≤ 10 ^ ((digitCount n : Int) - 1 + e) := zpow_le_zpow_right₀ (by norm_num) (by omega)
          _ = 10 ^ ((digitCount n : Int) - 1) * 10 ^ e := by rw [zpow_add₀ (by norm_num)]
          _ ≤ n * 10 ^ e := mul_le_mul_of_nonneg_right hlow' hten.le
    · have hfraction : ((n * pow10 e : Nat) : ℚ) / (pow10 (-e) : Nat) = n * 10 ^ e := by
        rw [← pow10_div e]
        push_cast
        rw [mul_div_assoc]
      rw [← hfraction]
      exact nearest_ofFraction (Nat.mul_pos (by omega) (pow10_pos e)) (pow10_pos (-e))

end KeyHarvest.Binary64
