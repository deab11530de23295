/-
Which texts hold a character reference that is too long. Replacing the
references of a text stops at a numbered one with more digits than an
integer may have, and at nothing else. Where it stands does not matter:
no reference takes an ampersand along, so every ampersand of the text is
looked at (`ampersand_not_mem_take`).
-/
import KeyHarvest.Markup.Charref
import KeyHarvest.Proofs.Refusal
import Mathlib.Data.List.TakeWhile

namespace KeyHarvest.Charref

-- ========================================================== long ones

/-- What follows an ampersand is a number sign and too many digits. -/
def BeginsLong (t : Text) : Prop :=
  ∃ digits after : Text, t = (CodePoint.ofChar '#') :: (digits ++ after)
    ∧ (∀ c ∈ digits, c.isAsciiDigit = true) ∧ maxIntegerDigits < digits.length

/-- Somewhere in the text stands a numbered reference with too many
digits. -/
def HoldsLong (t : Text) : Prop :=
  ∃ before rest : Text, t = before ++ (CodePoint.ofChar '&') :: rest ∧ BeginsLong rest

theorem not_holdsLong_nil : ¬ HoldsLong [] := by
  intro h
  obtain ⟨before, rest, h, -⟩ := h
  cases before <;> cases h

/-- A long reference stands at the first code point or behind it. -/
theorem holdsLong_cons {c : CodePoint} {cs : Text} :
    HoldsLong (c :: cs) ↔ (c = '&' ∧ BeginsLong cs) ∨ HoldsLong cs := by
  constructor
  · intro h
    obtain ⟨before, rest, h, hrest⟩ := h
    cases before with
    | nil =>
        cases h
        exact .inl ⟨rfl, hrest⟩
    | cons b before =>
        cases h
        exact .inr ⟨before, rest, rfl, hrest⟩
  · intro h
    rcases h with ⟨rfl, hrest⟩ | ⟨before, rest, rfl, hrest⟩
    · exact ⟨[], cs, rfl, hrest⟩
    · exact ⟨c :: before, rest, rfl, hrest⟩

/-- A stretch without ampersands holds no part of one. -/
theorem holdsLong_append {u v : Text} (h : CodePoint.ofChar '&' ∉ u) :
    HoldsLong (u ++ v) ↔ HoldsLong v := by
  induction u with
  | nil => rfl
  | cons c u ih =>
      rw [List.mem_cons, not_or] at h
      rw [List.cons_append, holdsLong_cons, ih h.2]
      constructor
      · intro hv
        rcases hv with ⟨hc, -⟩ | hv
        · exact absurd hc.symm h.1
        · exact hv
      · exact .inr

/-- The digits of a numbered reference are too many exactly when so many
of them follow the number sign. -/
theorem beginsLong_cons {cs : Text} :
    BeginsLong ((CodePoint.ofChar '#') :: cs)
      ↔ maxIntegerDigits < (cs.takeWhile CodePoint.isAsciiDigit).length := by
  constructor
  · intro h
    obtain ⟨digits, after, h, hdigits, hlen⟩ := h
    cases h
    rw [List.takeWhile_append_of_pos hdigits, List.length_append]
    omega
  · intro h
    refine ⟨cs.takeWhile CodePoint.isAsciiDigit, cs.dropWhile CodePoint.isAsciiDigit, ?_, ?_, h⟩
    · rw [List.takeWhile_append_dropWhile]
    · intro c hc
      exact List.mem_takeWhile_imp hc

-- ========================================================= references

/-- A text starts with a code point when that is its first. -/
theorem starts_eq_true {c : CodePoint} {t : Text} :
    Text.starts c t = true ↔ ∃ cs, t = c :: cs := by
  cases t with
  | nil => simp [Text.starts]
  | cons d cs => simp [Text.starts]

/-- A reference is refused exactly when its digits are too many. -/
theorem reference?_eq_error {t : Text} : (∃ e, reference? t = .error e) ↔ BeginsLong t := by
  by_cases hs : Text.starts '#' t = true
  · obtain ⟨cs, rfl⟩ := starts_eq_true.1 hs
    rw [beginsLong_cons]
    unfold reference?
    simp only [hs, if_true, List.drop_succ_cons, List.drop_zero]
    by_cases hlen : (cs.takeWhile CodePoint.isAsciiDigit).length ≤ maxIntegerDigits
    · rw [if_pos hlen]
      split
      · simp [Nat.not_lt.2 hlen]
      · split <;> simp [Nat.not_lt.2 hlen]
    · have hpos : 0 < (cs.takeWhile CodePoint.isAsciiDigit).length :=
        Nat.lt_of_le_of_lt (Nat.zero_le _) (Nat.not_le.1 hlen)
      have hne : (!(cs.takeWhile CodePoint.isAsciiDigit).isEmpty) = true := by
        simpa [List.length_pos_iff] using hpos
      rw [if_neg hlen, if_pos hne]
      simp [Nat.not_le.1 hlen]
  · have hlong : ¬ BeginsLong t := by
      intro h
      obtain ⟨digits, after, h, -⟩ := h
      exact hs (starts_eq_true.2 ⟨_, h⟩)
    unfold reference?
    rw [if_neg hs]
    dsimp only
    split <;> simp [hlong]

/-- What stands in a run with its semicolon stands in the run or is the
semicolon. -/
theorem mem_take_closed {c : CodePoint} {run : Nat} {t : Text}
    (h : c ∈ t.take (closed run t)) : c ∈ t.take run ∨ c = ';' := by
  unfold closed at h
  split at h
  · next hs =>
      obtain ⟨cs, hcs⟩ := starts_eq_true.1 hs
      rw [List.take_add, hcs, List.mem_append] at h
      simpa using h
  · exact .inl h

/-- No ampersand is taken along with a run that has none. -/
theorem ampersand_not_mem_take_closed {run : Nat} {t : Text}
    (h : CodePoint.ofChar '&' ∉ t.take run) : CodePoint.ofChar '&' ∉ t.take (closed run t) := by
  intro hmem
  rcases mem_take_closed hmem with hmem | hmem
  · exact h hmem
  · simp at hmem

/-- As much of a text as a run is long is the run. -/
theorem take_length_takeWhile (p : CodePoint → Bool) (t : Text) :
    t.take (t.takeWhile p).length = t.takeWhile p :=
  (List.prefix_iff_eq_take.1 (List.takeWhile_prefix p)).symm

/-- No reference takes an ampersand along. -/
theorem ampersand_not_mem_take {t u : Text} {n : Nat} (h : reference? t = .ok (some (u, n))) :
    CodePoint.ofChar '&' ∉ t.take n := by
  unfold reference? at h
  split at h
  · next hs =>
      obtain ⟨cs, rfl⟩ := starts_eq_true.1 hs
      simp only [List.drop_succ_cons, List.drop_zero] at h
      split at h
      · -- decimal digits
        split at h
        · cases h
          apply ampersand_not_mem_take_closed
          rw [List.take_succ_cons, take_length_takeWhile, List.mem_cons, not_or]
          refine ⟨by simp, ?_⟩
          intro hmem
          exact absurd (List.mem_takeWhile_imp hmem) (by decide)
        · cases h
      · split at h
        · -- hexadecimal digits
          next hx =>
            cases h
            rw [Bool.and_eq_true, Bool.or_eq_true, starts_eq_true, starts_eq_true] at hx
            obtain ⟨x, ds, hletter, rfl⟩ :
                ∃ x ds, (x = CodePoint.ofChar 'x' ∨ x = CodePoint.ofChar 'X') ∧ cs = x :: ds := by
              rcases hx.1 with ⟨ds, rfl⟩ | ⟨ds, rfl⟩
              · exact ⟨_, ds, .inl rfl, rfl⟩
              · exact ⟨_, ds, .inr rfl, rfl⟩
            apply ampersand_not_mem_take_closed
            simp only [List.drop_succ_cons, List.drop_zero]
            rw [List.take_succ_cons, List.take_succ_cons, take_length_takeWhile, List.mem_cons,
              List.mem_cons, not_or, not_or]
            refine ⟨by simp, ?_, ?_⟩
            · rcases hletter with rfl | rfl <;> simp
            · intro hmem
              exact absurd (List.mem_takeWhile_imp hmem) (by decide)
        · cases h
  · -- a name
    dsimp only at h
    split at h
    · cases h
    · cases h
      apply ampersand_not_mem_take_closed
      have hbegins : (t.take 32).takeWhile isNameChar <+: t :=
        (List.takeWhile_prefix _).trans (List.take_prefix 32 t)
      rw [← List.prefix_iff_eq_take.1 hbegins]
      intro hmem
      exact absurd (List.mem_takeWhile_imp hmem) (by decide)

-- ============================================================== texts

/-- A text without ampersands has no references. -/
theorem decode_of_not_mem {t : Text} (h : CodePoint.ofChar '&' ∉ t) : decode t = .ok t := by
  induction t with
  | nil => rw [decode]
  | cons c cs ih =>
      have hc : c ≠ '&' := fun hc => h (by rw [hc]; exact List.mem_cons_self)
      rw [decode, if_neg hc, ih fun hmem => h (List.mem_cons_of_mem c hmem)]
      rfl

/-- Replacing references fails exactly at a numbered one with too many
digits. -/
theorem decode_eq_error {t : Text} : (∃ e, decode t = .error e) ↔ HoldsLong t := by
  fun_induction decode t with
  | case1 => simp [not_holdsLong_nil]
  | case2 cs ih ihdrop =>
      rw [holdsLong_cons, ← reference?_eq_error]
      cases hr : reference? cs with
      | error e => simp [bind, Except.bind]
      | ok o =>
          cases o with
          | none =>
              show (∃ e, (decode cs >>= fun v => pure (_ :: v)) = .error e) ↔ _
              simp only [bind_pure_eq_error]
              rw [ih]
              simp
          | some found =>
              obtain ⟨u, n⟩ := found
              show (∃ e, (decode (cs.drop n) >>= fun v => pure (u ++ v)) = .error e) ↔ _
              -- what the reference takes holds no ampersand
              have hskip : HoldsLong cs ↔ HoldsLong (cs.drop n) := by
                have h := holdsLong_append (v := cs.drop n) (ampersand_not_mem_take hr)
                rwa [List.take_append_drop] at h
              simp only [bind_pure_eq_error]
              rw [ihdrop, hskip]
              simp
  | case3 c cs hc ih =>
      simp only [bind_pure_eq_error]
      rw [ih, holdsLong_cons]
      simp [hc]

end KeyHarvest.Charref
