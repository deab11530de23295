/-
Texts that can be written. A surrogate has no bytes in UTF-8, and every
other code point has, so a text is written as a string exactly when it
holds no surrogate (`toString?_isSome`). Such a text is scalar.

Whatever cuts a text or puts texts together keeps them scalar, because its
code points are those that were there before. New code points come from
few places: literal texts, the digits of numbers, lower case, and the
bytes of files. None of them makes a surrogate.
-/
import KeyHarvest.Number.Spelling
import KeyHarvest.Text.Blank
import KeyHarvest.Text.Lines
import KeyHarvest.Text.Lower
import KeyHarvest.Text.Pattern
import KeyHarvest.Text.Utf8
import Mathlib.Algebra.Group.Nat.Defs

namespace KeyHarvest

-- ======================================================= code points

namespace CodePoint

@[simp] theorem isSurrogate_ofChar (c : Char) : (ofChar c).isSurrogate = false := by
  have hvalid := c.valid
  simp only [UInt32.isValidChar, Nat.isValidChar] at hvalid
  rw [isSurrogate, Bool.and_eq_false_iff, decide_eq_false_iff_not, decide_eq_false_iff_not]
  show ¬ 0xD800 ≤ c.val.toNat ∨ ¬ c.val.toNat ≤ 0xDFFF
  omega

/-- A number outside the range of surrogates gives none. -/
theorem isSurrogate_ofNat {n : Nat} (h : n < 0xD800 ∨ 0xDFFF < n) :
    (ofNat n).isSurrogate = false := by
  unfold ofNat isSurrogate
  split <;> simp only [Bool.and_eq_false_iff, decide_eq_false_iff_not] <;> omega

/-- The surrogates are the code points that are no characters. -/
theorem toChar?_isSome (c : CodePoint) : c.toChar?.isSome = !c.isSurrogate := by
  have hlt := c.isLt
  unfold toChar? isSurrogate
  by_cases h : c.val.isValidChar
  · rw [dif_pos h, Option.isSome_some, eq_comm, Bool.not_eq_true']
    simp only [Nat.isValidChar] at h
    simp only [Bool.and_eq_false_iff, decide_eq_false_iff_not]
    omega
  · rw [dif_neg h, Option.isSome_none, eq_comm, Bool.not_eq_false']
    simp only [Nat.isValidChar] at h
    simp only [Bool.and_eq_true, decide_eq_true_eq]
    omega

end CodePoint

-- ============================================================= texts

namespace Text

/-- A text without surrogates. -/
def Scalar (t : Text) : Prop := ∀ c ∈ t, c.isSurrogate = false

instance (t : Text) : Decidable (Scalar t) := inferInstanceAs (Decidable (∀ c ∈ t, _ = _))

variable {t u : Text}

@[simp] theorem scalar_nil : Scalar [] := nofun

@[simp] theorem scalar_cons {c : CodePoint} :
    Scalar (c :: t) ↔ c.isSurrogate = false ∧ Scalar t :=
  List.forall_mem_cons

@[simp] theorem scalar_append : Scalar (t ++ u) ↔ Scalar t ∧ Scalar u := List.forall_mem_append

/-- Part of a scalar text is one. -/
theorem Scalar.subset (ht : Scalar t) (h : u ⊆ t) : Scalar u := fun c hc => ht c (h hc)

theorem Scalar.part (ht : Scalar t) (h : u <:+: t) : Scalar u := ht.subset h.subset

theorem Scalar.drop (ht : Scalar t) (n : Nat) : Scalar (t.drop n) := ht.subset (List.drop_subset n t)

theorem Scalar.take (ht : Scalar t) (n : Nat) : Scalar (t.take n) := ht.subset (List.take_subset n t)

theorem Scalar.slice (ht : Scalar t) (start stop : Nat) : Scalar (Text.slice t start stop) :=
  (ht.drop start).take (stop - start)

/-- Trimming brings in no surrogate. -/
theorem Scalar.trim (ht : Scalar t) : Scalar (Text.trim t) := by
  refine ht.subset fun c hc => ?_
  have hdropped := List.dropWhile_subset _ (List.mem_reverse.1 hc)
  exact List.dropWhile_subset _ (List.mem_reverse.1 hdropped)

/-- The first line of a text without surrogates has none. -/
theorem Scalar.firstLine (ht : Scalar t) : Scalar (Text.firstLine t) :=
  ht.subset (List.takeWhile_subset _)

/-- The texts of characters are scalar. -/
@[simp] theorem scalar_map_ofChar (cs : List Char) : Scalar (cs.map CodePoint.ofChar) := by
  intro c hc
  obtain ⟨x, -, rfl⟩ := List.mem_map.1 hc
  exact CodePoint.isSurrogate_ofChar x

@[simp] theorem scalar_ofString (s : String) : Scalar (ofString s) := scalar_map_ofChar s.toList

@[simp] theorem scalar_ofNat (n : Nat) : Scalar (ofNat n) := scalar_map_ofChar (Nat.toDigits 10 n)

/-- Texts can be joined to a scalar one when all of them are. -/
theorem scalar_join {sep : Text} (hsep : Scalar sep) {ts : List Text} :
    Scalar (join sep ts) ↔ ∀ t ∈ ts, Scalar t := by
  induction ts with
  | nil => simp [join]
  | cons t ts ih =>
      cases ts with
      | nil => simp [join]
      | cons u us =>
          have hjoin : join sep (t :: u :: us) = t ++ sep ++ join sep (u :: us) := by
            rw [join, List.intercalate_cons_cons]
            rfl
          rw [hjoin, scalar_append, scalar_append, ih, List.forall_mem_cons]
          simp [hsep]

/-- The texts that can be written are the scalar ones. -/
theorem toString?_isSome (t : Text) : (toString? t).isSome ↔ Scalar t := by
  unfold toString?
  rw [Option.isSome_map]
  induction t with
  | nil => simp
  | cons c cs ih =>
      rw [scalar_cons, ← ih, List.mapM_cons]
      have hc := CodePoint.toChar?_isSome c
      cases hx : c.toChar? with
      | none =>
          rw [hx] at hc
          simp_all
      | some x =>
          rw [hx] at hc
          cases hxs : cs.mapM CodePoint.toChar? <;> simp_all

-- ========================================================= lower case

/-- The runs of lower-case letters keep clear of the surrogates. -/
theorem lowerRuns_clear :
    ∀ r ∈ lowerRuns, r.target + (r.last - r.first) < 0xD800 ∨ 0xDFFF < r.target := by
  decide +kernel

/-- No small letter is a surrogate. -/
theorem isSurrogate_lower {c : CodePoint} (hc : c.isSurrogate = false) :
    c.lower.isSurrogate = false := by
  unfold CodePoint.lower
  split
  · next hascii =>
      split
      · exact CodePoint.isSurrogate_ofNat (.inl (by omega))
      · exact hc
  · unfold CaseRun.map
    split
    · next r hr =>
        have hclear := lowerRuns_clear r (List.mem_of_find?_eq_some hr)
        have hcovers := List.find?_some hr
        simp only [CaseRun.covers, CodePoint.within, Bool.and_eq_true, decide_eq_true_eq]
          at hcovers
        exact CodePoint.isSurrogate_ofNat (by omega)
    · exact hc

/-- The small letters of a text have no surrogate, whatever stands in front.
-/
theorem Scalar.lowerAfter {before : Text} (ht : Scalar t) : Scalar (lowerAfter before t) := by
  induction t generalizing before with
  | nil => exact scalar_nil
  | cons c cs ih =>
      rw [scalar_cons] at ht
      rw [Text.lowerAfter, scalar_append]
      refine ⟨?_, ih ht.2⟩
      split
      · decide
      · split
        · split <;> decide
        · simpa using isSurrogate_lower ht.1

/-- The text in small letters has no surrogate. -/
theorem Scalar.lower (ht : Scalar t) : Scalar (Text.lower t) := ht.lowerAfter

end Text

-- ============================================================ numbers

namespace Layout

@[simp] theorem scalar_zeros (n : Nat) : Text.Scalar (zeros n) := by
  intro c hc
  rw [List.eq_of_mem_replicate hc]
  exact CodePoint.isSurrogate_ofChar '0'

variable {digits : Text} (hdigits : Text.Scalar digits)

include hdigits

/-- Digits with a point between them are scalar. -/
theorem scalar_positional (lead : Int) : Text.Scalar (positional digits lead) := by
  unfold positional
  have hpadded : ∀ n, Text.Scalar (digits ++ zeros n) := by simp [hdigits]
  split
  · simp [hdigits]
  · simp only [Text.scalar_append, Text.scalar_ofString, and_true]
    refine ⟨(hpadded _).take _, ?_⟩
    split
    · exact scalar_zeros 1
    · exact (hpadded _).drop _

/-- Digits with an exponent are scalar. -/
theorem scalar_scientific (width : Nat) (lead : Int) :
    Text.Scalar (scientific width digits lead) := by
  unfold scientific
  simp only [Text.scalar_append, scalar_zeros, Text.scalar_ofNat, and_true]
  refine ⟨⟨⟨hdigits.take 1, ?_⟩, hdigits.drop 1⟩, ?_⟩ <;> split <;> simp

end Layout

/-- However it is laid out, a number is scalar. -/
theorem Binary64.scalar_spell (l : Layout) (x : Binary64) : Text.Scalar (x.spell l) := by
  cases x with
  | infinite => simp [spell]
  | finite m q =>
      rw [spell, Layout.write]
      split
      · exact Layout.scalar_positional (Text.scalar_ofNat _) _
      · exact Layout.scalar_scientific (Text.scalar_ofNat _) _ _

namespace Number

/-- The text of a number is scalar. -/
theorem scalar_text (n : Number) : Text.Scalar n.text := by
  cases n with
  | integer n => exact Text.scalar_ofNat n
  | float x => exact x.scalar_spell valueLayout

/-- The key of a number is scalar. -/
theorem scalar_keyText (n : Number) : Text.Scalar n.keyText := by
  cases n with
  | integer n => exact Text.scalar_ofNat n
  | float x =>
      rw [keyText]
      split
      · split
        · exact Text.scalar_ofNat _
        · exact x.scalar_spell keyLayout
      · exact x.scalar_spell keyLayout

end Number

-- =========================================================== patterns

/-- What a pattern finds is part of the text. -/
theorem Pattern.subset_of_mem_findAll {items : List Item} {t u : Text} (h : u ∈ findAll items t) :
    u ⊆ t := by
  fun_induction findAll items t with
  | case1 => cases h
  | case2 c cs n hn ih =>
      rcases List.mem_cons.1 h with rfl | h
      · exact List.take_subset n (c :: cs)
      · intro x hx
        exact List.mem_cons_of_mem c (List.drop_subset _ cs (ih h hx))
  | case3 c cs hn ih =>
      intro x hx
      exact List.mem_cons_of_mem c (ih h hx)

-- ============================================================== bytes

namespace Utf8

/-- The number that a leading byte and those behind it make is bounded by
the range of the first of them. -/
theorem tails_bounds {n low high share v : Nat} {bs : List UInt8} (hlow : 0x80 ≤ low)
    (h : (tails (n + 1) low high share bs).1 = some v) :
    (64 * share + (low - 0x80)) * 64 ^ n ≤ v
      ∧ v < (64 * share + (high - 0x80) + 1) * 64 ^ n := by
  induction n generalizing low high share bs with
  | zero =>
      cases bs with
      | nil => cases h
      | cons b bs =>
          rw [tails] at h
          split at h
          · simp only [tails, Option.some.injEq] at h
            omega
          · cases h
  | succ n ih =>
      cases bs with
      | nil => cases h
      | cons b bs =>
          rw [tails] at h
          split at h
          · next hb =>
              obtain ⟨hle, hlt⟩ := ih (Nat.le_refl _) h
              have hfrom : 64 * share + (low - 0x80) ≤ 64 * share + (b.toNat - 0x80) := by omega
              have hto : 64 * share + (b.toNat - 0x80) + 1 ≤ 64 * share + (high - 0x80) + 1 := by
                omega
              rw [Nat.pow_succ, Nat.mul_comm (64 ^ n), ← Nat.mul_assoc, ← Nat.mul_assoc]
              constructor
              · calc (64 * share + (low - 0x80)) * 64 * 64 ^ n
                    ≤ (64 * (64 * share + (b.toNat - 0x80)) + (0x80 - 0x80)) * 64 ^ n :=
                      Nat.mul_le_mul_right _ (by omega)
                  _ ≤ v := hle
              · calc v < (64 * (64 * share + (b.toNat - 0x80)) + (0xBF - 0x80) + 1) * 64 ^ n := hlt
                  _ ≤ (64 * share + (high - 0x80) + 1) * 64 * 64 ^ n :=
                      Nat.mul_le_mul_right _ (by omega)
          · cases h

/-- What a leading byte announces is no surrogate. -/
theorem not_surrogate_of_lead? {b v : Nat} {l : Lead} {bs : List UInt8} (hl : lead? b = some l)
    (hv : (tails l.count l.low l.high l.share bs).1 = some v) : v < 0xD800 ∨ 0xDFFF < v := by
  unfold lead? at hl
  repeat' split at hl
  all_goals cases hl
  · cases hv
    dsimp only
    omega
  all_goals
    have hbounds := tails_bounds (Nat.le_of_ble_eq_true rfl) hv
    simp only [Nat.reducePow, Nat.reduceSub] at hbounds
    omega

/-- No unit of bytes is a surrogate. -/
theorem not_surrogate_of_mem_units {bytes : List UInt8} {c : CodePoint}
    (h : some c ∈ units bytes) : c.isSurrogate = false := by
  fun_induction units bytes with
  | case1 => cases h
  | case2 b bs hb ih =>
      rcases List.mem_cons.1 h with h | h
      · cases h
      · exact ih h
  | case3 b bs l hl ih =>
      rcases List.mem_cons.1 h with h | h
      · obtain ⟨v, hv, rfl⟩ := Option.map_eq_some_iff.1 h.symm
        exact CodePoint.isSurrogate_ofNat (not_surrogate_of_lead? hl hv)
      · exact ih h

end Utf8

namespace Text

/-- Line feeds for other line ends bring in no surrogate. -/
theorem Scalar.withLineFeeds {t : Text} (ht : Scalar t) : Scalar (Text.withLineFeeds t) := by
  fun_induction Text.withLineFeeds t <;> simp_all

/-- The text of a file is scalar, whatever its bytes. -/
theorem scalar_ofBytes (bytes : List UInt8) : Scalar (ofBytes bytes) := by
  refine Scalar.withLineFeeds fun c hc => ?_
  obtain ⟨o, ho, hc⟩ := List.mem_filterMap.1 hc
  rw [id] at hc
  exact Utf8.not_surrogate_of_mem_units (hc ▸ ho)

end Text

end KeyHarvest
