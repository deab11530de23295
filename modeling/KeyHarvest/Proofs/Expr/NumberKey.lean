/-
Numbers as keys. The key of a number is a numeral again, alone in its text,
and it is worth what the number is worth (`number_key_exact`): an integral
number below 10^21 is written with all its digits and read as an integer,
any other one is written with its shortest digits, and the number nearest
to these is the number itself.

The one exception are the literals from half a unit beyond the largest
number on. They are read as infinite, and the key of what is infinite is a
name. A numeral that is read as infinite would be the key one expects.
-/
import KeyHarvest.Expr.Literals
import KeyHarvest.Expr.Session
import KeyHarvest.Proofs.Expr.Scan
import KeyHarvest.Proofs.Expr.WellFormed
import KeyHarvest.Proofs.Number.Shortest
import Mathlib.Data.Nat.Cast.Field

namespace KeyHarvest

-- ============================================================= digits

namespace Text

theorem ofNat_ne_nil (n : Nat) : ofNat n ≠ [] := by
  rw [ofNat, ne_eq, List.map_eq_nil_iff]
  exact Nat.toDigits_ne_nil

/-- The value of digits behind others. -/
theorem digitsValue_cons_foldl (t : Text) (n : Nat) :
    t.foldl (fun n c => 10 * n + c.digitValue?.getD 0) n = n * 10 ^ t.length + digitsValue t := by
  induction t generalizing n with
  | nil => simp [digitsValue]
  | cons c cs ih =>
      rw [digitsValue, List.foldl_cons, List.foldl_cons, ih, ih, List.length_cons, pow_succ']
      ring

theorem digitsValue_append (t u : Text) :
    digitsValue (t ++ u) = digitsValue t * 10 ^ u.length + digitsValue u := by
  rw [digitsValue, List.foldl_append, ← digitsValue, digitsValue_cons_foldl]

/-- Zeros are worth nothing. -/
@[simp] theorem digitsValue_zeros (n : Nat) : digitsValue (Layout.zeros n) = 0 := by
  induction n with
  | zero => rfl
  | succ n ih =>
      show digitsValue ([CodePoint.ofChar '0'] ++ Layout.zeros n) = 0
      rw [digitsValue_append, ih]
      show 0 * _ + 0 = 0
      rw [Nat.zero_mul]

theorem digitValue?_lt {c : CodePoint} {n : Nat} (h : c.digitValue? = some n) : n < 10 := by
  obtain ⟨first, hfirst, rfl⟩ := Option.map_eq_some_iff.1 h
  have hwithin := List.find?_some hfirst
  simp only [CodePoint.within, Bool.and_eq_true, decide_eq_true_eq] at hwithin
  omega

/-- Digits are worth less than the power of ten of their number. -/
theorem digitsValue_lt (t : Text) : digitsValue t < 10 ^ t.length := by
  induction t using List.reverseRecOn with
  | nil => decide
  | append_singleton t c ih =>
      have hdigit : digitsValue [c] < 10 := by
        show 10 * 0 + c.digitValue?.getD 0 < 10
        cases hc : c.digitValue? with
        | none => decide
        | some n =>
            have hn := digitValue?_lt hc
            simpa using hn
      rw [digitsValue_append, List.length_append, List.length_singleton, pow_one, pow_succ]
      omega

end Text

-- ============================================================ layouts

namespace Layout

variable {ds : Text}

/-- Zeros are digits. -/
theorem isDigit_of_mem_zeros {n : Nat} {c : CodePoint} (h : c ∈ zeros n) : c.isDigit = true := by
  rw [List.eq_of_mem_replicate h]
  decide

@[simp] theorem length_zeros (n : Nat) : (zeros n).length = n := List.length_replicate

/-- Digits with a point and digits behind it are a numeral. -/
theorem exists_pointed {whole fraction : Text} (hwhole : ∀ c ∈ whole, c.isDigit = true)
    (hfraction : ∀ c ∈ fraction, c.isDigit = true) (hne : whole ≠ []) :
    ∃ n : Numeral, n.spelling = whole ++ CodePoint.ofChar '.' :: fraction ∧ ¬ n.IsInteger
      ∧ n.value = Text.digitsValue (whole ++ fraction) * 10 ^ (-(fraction.length : Int)) := by
  refine ⟨⟨whole, some fraction, none, hwhole, ?_, .inl hne⟩, ?_, ?_, ?_⟩
  · intro f hf
    cases hf
    exact hfraction
  · rw [Numeral.spelling, Numeral.mantissa, Option.elim_some, Option.elim_none, List.append_nil]
  · exact fun h => Option.some_ne_none fraction h.1
  · rw [Numeral.value, Numeral.fraction, Numeral.power, Option.getD_some, Option.elim_none, zero_sub]

/-- A point set among digits, or in front of them, makes a numeral with a
fraction. -/
theorem exists_positional (hds : ∀ c ∈ ds, c.isDigit = true) (hne : ds ≠ []) (lead : Int) :
    ∃ n : Numeral, n.spelling = positional ds lead ∧ ¬ n.IsInteger
      ∧ n.value = Text.digitsValue ds * 10 ^ (lead + 1 - ds.length) := by
  have hpos := List.length_pos_iff.2 hne
  unfold positional
  split
  · -- a number below one: zeros stand between the point and the digits
    next hlead =>
      have hfront : ∀ c ∈ zeros (-lead - 1).toNat ++ ds, c.isDigit = true := by
        intro c hc
        exact (List.mem_append.1 hc).elim isDigit_of_mem_zeros (hds c)
      obtain ⟨n, hspelling, hint, hvalue⟩ :=
        exists_pointed (fun c => isDigit_of_mem_zeros (n := 1)) hfront (List.cons_ne_nil _ _)
      refine ⟨n, hspelling, hint, ?_⟩
      rw [hvalue, Text.digitsValue_append, Text.digitsValue_append, Text.digitsValue_zeros,
        Text.digitsValue_zeros, Nat.zero_mul, Nat.zero_mul, Nat.zero_add, Nat.zero_add,
        List.length_append, length_zeros]
      congr 2
      omega
  · next hlead =>
      -- the point stands among the digits or behind all of them
      dsimp only
      set before := lead.toNat + 1 with hbefore
      rcases Nat.lt_or_ge before ds.length with hlen | hlen
      · have hnone : before - ds.length = 0 := by omega
        have hbehind : (ds.drop before).isEmpty = false := by
          rw [List.isEmpty_eq_false_iff, ← List.length_pos_iff, List.length_drop]
          omega
        have hfront : ds.take before ≠ [] := by
          rw [← List.length_pos_iff, List.length_take]
          omega
        obtain ⟨n, hspelling, hint, hvalue⟩ :=
          exists_pointed (fun c hc => hds c (List.mem_of_mem_take hc))
            (fun c hc => hds c (List.mem_of_mem_drop hc)) hfront
        refine ⟨n, ?_, hint, ?_⟩
        · rw [hspelling, hnone, zeros, List.replicate_zero, List.append_nil, hbehind,
            List.append_assoc]
          rfl
        · rw [hvalue, List.take_append_drop, List.length_drop]
          congr 2
          omega
      · -- nothing is left behind the point, and a zero is put there
        have hlength : (ds ++ zeros (before - ds.length)).length = before := by
          rw [List.length_append, length_zeros]
          omega
        have hdigits : ∀ c ∈ ds ++ zeros (before - ds.length), c.isDigit = true := by
          intro c hc
          exact (List.mem_append.1 hc).elim (hds c) isDigit_of_mem_zeros
        obtain ⟨n, hspelling, hint, hvalue⟩ :=
          exists_pointed hdigits (fun c => isDigit_of_mem_zeros (n := 1))
            (List.append_ne_nil_of_left_ne_nil hne _)
        refine ⟨n, ?_, hint, ?_⟩
        · rw [hspelling, List.drop_of_length_le hlength.le, List.take_of_length_le hlength.le,
            List.isEmpty_nil, if_pos rfl]
          exact (List.append_assoc _ [CodePoint.ofChar '.'] _).symm
        · have hexponent : lead + 1 - ds.length = ((before - ds.length : Nat) : Int) := by omega
          rw [hvalue, hexponent, zpow_natCast, Text.digitsValue_append, Text.digitsValue_append,
            Text.digitsValue_zeros, Text.digitsValue_zeros, length_zeros, length_zeros]
          push_cast
          ring

/-- A power of ten with its sign, padded with zeros, is an exponent. -/
theorem exists_signed (lead : Int) (padding : Nat) :
    ∃ x : Exponent, x.power = lead
      ∧ x.spelling = (if lead < 0 then ['e', '-'] else ['e', '+'] : Text)
        ++ zeros padding ++ Text.ofNat lead.natAbs := by
  have hdigits : ∀ c ∈ zeros padding ++ Text.ofNat lead.natAbs, c.isDigit = true := by
    intro c hc
    rcases List.mem_append.1 hc with hc | hc
    · exact isDigit_of_mem_zeros hc
    · exact isDigit_of_isAsciiDigit (isAsciiDigit_of_mem_ofNat hc)
  have hne : zeros padding ++ Text.ofNat lead.natAbs ≠ [] :=
    List.append_ne_nil_of_right_ne_nil _ (Text.ofNat_ne_nil _)
  have hvalue : Text.digitsValue (zeros padding ++ Text.ofNat lead.natAbs) = lead.natAbs := by
    rw [Text.digitsValue_append, Text.digitsValue_zeros, Nat.zero_mul, Nat.zero_add,
      digitsValue_ofNat]
  split
  · next hneg =>
      refine ⟨⟨'e', ['-'], _, .inl rfl, .inr (.inr rfl), hdigits, hne⟩, ?_, ?_⟩
      · rw [Exponent.power, if_pos rfl, hvalue]
        omega
      · show _ :: ([_] ++ _) = [_, _] ++ _ ++ _
        rw [List.append_assoc]
        rfl
  · next hnonneg =>
      refine ⟨⟨'e', ['+'], _, .inl rfl, .inr (.inl rfl), hdigits, hne⟩, ?_, ?_⟩
      · have hsign : [CodePoint.ofChar '+'] ≠ [CodePoint.ofChar '-'] := by decide
        rw [Exponent.power, if_neg hsign, hvalue]
        omega
      · show _ :: ([_] ++ _) = [_, _] ++ _ ++ _
        rw [List.append_assoc]
        rfl

/-- One digit and an exponent, and a fraction where there are more digits,
make a numeral. -/
theorem exists_scientific (width : Nat) (hds : ∀ c ∈ ds, c.isDigit = true) (hne : ds ≠ [])
    (lead : Int) :
    ∃ n : Numeral, n.spelling = scientific width ds lead ∧ ¬ n.IsInteger
      ∧ n.value = Text.digitsValue ds * 10 ^ (lead + 1 - ds.length) := by
  obtain ⟨x, hpower, hspelling⟩ :=
    exists_signed lead (width - (Text.ofNat lead.natAbs).length)
  obtain ⟨c, cs, rfl⟩ := List.exists_cons_of_ne_nil hne
  rw [List.forall_mem_cons] at hds
  have hwhole : ∀ d ∈ [c], d.isDigit = true := by simpa using hds.1
  have hexponent : (x.power : Int) - cs.length = lead + 1 - (c :: cs).length := by
    rw [hpower, List.length_cons]
    omega
  -- a single digit is written without a point
  cases cs with
  | nil =>
      refine ⟨⟨[c], none, some x, hwhole, nofun, .inl (List.cons_ne_nil _ _)⟩, ?_, ?_, ?_⟩
      · show [c] ++ [] ++ x.spelling = _
        rw [hspelling, scientific]
        simp
      · exact fun h => Option.some_ne_none x h.2
      · rw [← hexponent]
        rfl
  | cons d ds =>
      refine ⟨⟨[c], some (d :: ds), some x, hwhole, ?_, .inl (List.cons_ne_nil _ _)⟩, ?_, ?_, ?_⟩
      · intro f hf
        cases hf
        exact hds.2
      · show [c] ++ CodePoint.ofChar '.' :: d :: ds ++ x.spelling = _
        rw [hspelling, scientific]
        simp
      · exact fun h => Option.some_ne_none x h.2
      · rw [← hexponent]
        rfl

/-- In every layout a decimal is written as a numeral with a point or an
exponent, and it is worth the decimal. -/
theorem exists_write (l : Layout) (d : Binary64.Decimal) :
    ∃ n : Numeral, n.spelling = l.write d ∧ ¬ n.IsInteger ∧ n.value = d.value := by
  have hdigits : ∀ c ∈ Text.ofNat d.digits, c.isDigit = true :=
    fun c hc => isDigit_of_isAsciiDigit (isAsciiDigit_of_mem_ofNat hc)
  have hne := Text.ofNat_ne_nil d.digits
  have hpos := List.length_pos_iff.2 hne
  have hexponent : d.exponent + ((Text.ofNat d.digits).length - 1 : Nat) + 1
      - (Text.ofNat d.digits).length = d.exponent := by
    omega
  rw [write, Binary64.Decimal.value]
  split
  · have h := exists_positional hdigits hne (d.exponent + ((Text.ofNat d.digits).length - 1 : Nat))
    rwa [hexponent, digitsValue_ofNat] at h
  · have h := exists_scientific l.width hdigits hne
      (d.exponent + ((Text.ofNat d.digits).length - 1 : Nat))
    rwa [hexponent, digitsValue_ofNat] at h

end Layout

-- ============================================================ numbers

namespace Number

/-- A natural number that a floating-point number is, is worth as much. -/
theorem worth_of_toNat? {x : Binary64} {n : Nat} (h : x.toNat? = some n) :
    (integer n).worth = (float x).worth := by
  cases x with
  | infinite => cases h
  | finite m q =>
      unfold Binary64.toNat? at h
      dsimp only at h
      split at h
      · next hmod =>
          obtain rfl := Option.some.inj h
          have hpos : (Binary64.pow2 (-q) : ℚ) ≠ 0 := by
            exact_mod_cast (Binary64.pow2_pos (-q)).ne'
          show (((m * Binary64.pow2 q / Binary64.pow2 (-q) : Nat) : ℚ) : WithTop ℚ)
            = (Binary64.worth m q : WithTop ℚ)
          rw [Nat.cast_div (Nat.dvd_of_mod_eq_zero hmod) hpos, Binary64.worth, ← Binary64.pow2_div q,
            Nat.cast_mul, mul_div_assoc]
      · cases h

/-- The digits of a natural number that is not too long are a numeral that
denotes it. -/
theorem exists_ofNat {n : Nat} (h : n < 10 ^ maxIntegerDigits) :
    ∃ k : Numeral, k.spelling = Text.ofNat n ∧ k.Denotes (.integer n)
      ∧ (k.IsInteger → k.whole.length ≤ maxIntegerDigits) := by
  have hdigits : ∀ c ∈ Text.ofNat n, c.isDigit = true :=
    fun c hc => isDigit_of_isAsciiDigit (isAsciiDigit_of_mem_ofNat hc)
  refine ⟨⟨Text.ofNat n, none, none, hdigits, nofun, .inl (Text.ofNat_ne_nil n)⟩, ?_, ⟨⟨rfl, rfl⟩, ?_⟩,
    fun _ => length_ofNat_le h⟩
  · show Text.ofNat n ++ [] ++ [] = _
    rw [List.append_nil, List.append_nil]
  · simp [Numeral.value, Numeral.fraction, Numeral.power, digitsValue_ofNat]

/-- A literal that is digits alone and not too long denotes a natural number
whose digits are not too long either. -/
theorem lt_of_denotes {k : Numeral} {n : Nat} (h : k.Denotes (.integer n))
    (hlen : k.IsInteger → k.whole.length ≤ maxIntegerDigits) : n < 10 ^ maxIntegerDigits := by
  obtain ⟨hint, hvalue⟩ := h
  have hdigits : n = Text.digitsValue k.whole := by
    rw [Numeral.value, Numeral.fraction, Numeral.power, hint.1, hint.2] at hvalue
    simpa using hvalue
  rw [hdigits]
  exact (Text.digitsValue_lt k.whole).trans_le (Nat.pow_le_pow_right (by decide) (hlen hint))

/-- A bound by a power of ten is one by every larger power. -/
theorem lt_pow_of_lt_pow10 {n k l : Nat} (h : n < Binary64.pow10 k) (hkl : k ≤ l) : n < 10 ^ l :=
  Nat.lt_of_lt_of_le h (Nat.pow_le_pow_right (by decide) hkl)

/-- The key of a number that a literal denotes is a numeral of the same
worth, unless the number is infinite. -/
theorem exists_keyText {k : Numeral} {v : Number} (h : k.Denotes v)
    (hlen : k.IsInteger → k.whole.length ≤ maxIntegerDigits) (hfinite : v ≠ .float .infinite) :
    ∃ (n : Numeral) (w : Number), n.spelling = v.keyText ∧ n.Denotes w
      ∧ (n.IsInteger → n.whole.length ≤ maxIntegerDigits) ∧ w.worth = v.worth := by
  cases v with
  | integer n =>
      obtain ⟨d, hspelling, hdenotes, hlength⟩ := exists_ofNat (lt_of_denotes h hlen)
      exact ⟨d, .integer n, hspelling, hdenotes, hlength, rfl⟩
  | float x =>
      cases x with
      | infinite => exact absurd rfl hfinite
      | finite m q =>
          have hspelled : ∃ (n : Numeral) (w : Number),
              n.spelling = (Binary64.finite m q).spell keyLayout ∧ n.Denotes w
                ∧ (n.IsInteger → n.whole.length ≤ maxIntegerDigits)
                ∧ w.worth = (float (.finite m q)).worth := by
            obtain ⟨n, hspelling, hint, hvalue⟩ := keyLayout.exists_write (Binary64.shortest m q)
            refine ⟨n, .float (.finite m q), hspelling, ⟨hint, ?_⟩, fun hi => absurd hi hint, rfl⟩
            rw [hvalue]
            exact Binary64.shortest_nearest h.2.2.1
          rw [keyText]
          split
          · next n hn =>
              split
              · next hsmall =>
                  have hbound := lt_pow_of_lt_pow10 hsmall (by decide : 21 ≤ maxIntegerDigits)
                  obtain ⟨d, hspelling, hdenotes, hlength⟩ := exists_ofNat hbound
                  exact ⟨d, .integer n, hspelling, hdenotes, hlength, worth_of_toNat? hn⟩
              · exact hspelled
          · exact hspelled

end Number

-- ============================================================= tokens

/-- A numeral alone in its text is read as the one token it stands for. -/
theorem tokenize_numeral {n : Numeral} {w : Number} (h : n.Denotes w)
    (hlen : n.IsInteger → n.whole.length ≤ maxIntegerDigits) :
    tokenize 0 n.spelling = .ok [⟨.number w, 0⟩] := by
  have hbegins : (TokenKind.number w).Begins n.spelling n.spelling :=
    ⟨⟨⟨n, rfl⟩, List.prefix_rfl, fun v _ hv => hv.length_le⟩, n, rfl, h, hlen⟩
  rw [tokenize, Lexeme.tokens_of_begins hbegins, List.drop_length, Lexeme.split]
  rfl

/-- Numbers are keys that can be read back. A number token of a text is
what a numeral at its place denotes. The number has a key; where the
numeral is digits alone, or less than what is read as infinite, the key is
one number token from the start of its text to its end, and worth the
number. From half a unit beyond the largest number on, the key is a name. -/
theorem number_key_exact {t : Text} {ts : List (Token Text)} (h : tokenize 0 t = .ok ts)
    {v : Number} {p : Nat} (hv : ⟨.number v, p⟩ ∈ ts) :
    ∃ n : Numeral, n.spelling <+: t.drop p ∧ n.Denotes v
      ∧ ∃ key, (Literal.number v).key? = some key
        ∧ (n.IsInteger ∨ n.value < Binary64.limit → ∃ w : Number, w.worth = v.worth
            ∧ tokenize 0 key = .ok [⟨.number w, 0⟩]
            ∧ ∀ offset d, ReadM.begin key offset d
              = some (.ok (), ⟨[⟨some (.number w), 0⟩, ⟨none, key.length⟩], 0, offset⟩))
        ∧ (¬ n.IsInteger → Binary64.limit ≤ n.value →
            key = Text.ofString "inf" ∧ tokenize 0 key = .ok [⟨.name key, 0⟩]) := by
  obtain ⟨xs, hexact, rfl⟩ := tokenize_eq_ok_iff.1 h
  obtain ⟨x, hx, hxv⟩ := List.mem_map.1 hv
  obtain ⟨hlongest, n, hspelling, hdenotes, hlen⟩ :
      (TokenKind.number v).Begins (t.drop p) (Text.slice t p x.stop) := by
    have hbegins := hexact.begins x hx
    rwa [hxv] at hbegins
  refine ⟨n, hspelling ▸ hlongest.begins, hdenotes, v.keyText, rfl, ?_, ?_⟩
  · intro hfinite
    have hne : v ≠ .float .infinite := by
      rintro rfl
      exact hfinite.elim hdenotes.1 (not_lt.2 hdenotes.2)
    obtain ⟨k, w, hkey, hw, hklen, hworth⟩ := Number.exists_keyText hdenotes hlen hne
    have htokens := tokenize_numeral hw hklen
    rw [hkey] at htokens
    refine ⟨w, hworth, htokens, ?_⟩
    intro offset d
    rw [ReadM.begin, htokens]
    rfl
  · intro hint hlarge
    obtain rfl : v = .float .infinite := by
      cases v with
      | integer k => exact absurd hdenotes.1 hint
      | float x => exact congrArg Number.float (hdenotes.2.unique hlarge)
    exact ⟨rfl, by decide +kernel⟩

/-- A hundred-thousandth has a key that is read back, and a literal beyond
the largest number has one that is a name. -/
theorem number_key_exact_beyond :
    tokenize 0 (Text.ofString "1e-5 1e999")
        = .ok [⟨.number (.float (.finite 5902958103587057 (-69))), 0⟩,
            ⟨.number (.float .infinite), 5⟩]
      ∧ (∃ key w, (Literal.number (.float (.finite 5902958103587057 (-69)))).key? = some key
          ∧ tokenize 0 key = .ok [⟨.number w, 0⟩]
          ∧ w.worth = (Number.float (.finite 5902958103587057 (-69))).worth)
      ∧ (Literal.number (.float .infinite)).key? = some (Text.ofString "inf")
      ∧ tokenize 0 (Text.ofString "inf") = .ok [⟨.name (Text.ofString "inf"), 0⟩] := by
  have htokens : tokenize 0 (Text.ofString "1e-5 1e999")
      = .ok [⟨.number (.float (.finite 5902958103587057 (-69))), 0⟩,
          ⟨.number (.float .infinite), 5⟩] := by decide +kernel
  refine ⟨htokens, ?_, ?_⟩
  · obtain ⟨n, -, hdenotes, key, hkey, hread, -⟩ := number_key_exact htokens List.mem_cons_self
    obtain ⟨w, hworth, hw, -⟩ := hread (.inr hdenotes.2.1)
    exact ⟨key, w, hkey, hw, hworth⟩
  · obtain ⟨n, -, hdenotes, key, hkey, -, hname⟩ :=
      number_key_exact htokens (List.mem_cons_of_mem _ List.mem_cons_self)
    obtain ⟨rfl, hname⟩ := hname hdenotes.1 hdenotes.2
    exact ⟨hkey, hname⟩

end KeyHarvest
