/-
The spellings of a string. Between quotes a code point can be written as
itself, by its number, by the letter of a control character or behind a
backslash, and each one as one likes (`Spells`). However it is spelled, the
string is one token of the text, and the value of the token is the string
(`spelled_string_exact`).

Spellings must not be mixed up where they meet: a quote must not close the
string too early, and a backslash must not take what belongs to the next
code point. So the lexer's two questions, where the string ends and what it
stands for, are answered at the first spelling, for any text behind it
(`Spells.quotedBody`, `Spells.decode_append`).
-/
import KeyHarvest.Expr.Session
import KeyHarvest.Proofs.Expr.Pieces

namespace KeyHarvest

-- ========================================================== spellings

/-- The control characters and the letters that name them. -/
def controls : List (Char × Char) :=
  [('n', '\n'), ('t', '\t'), ('r', '\r'), ('b', '\x08'), ('f', '\x0c'), ('v', '\x0b'),
    ('0', '\x00')]

/-- A hexadecimal digit of a value, in either case. -/
def IsHexDigit (value : Nat) (d : CodePoint) : Prop :=
  d = Nat.digitChar value ∨ d = (Nat.digitChar value).toUpper

/-- The values of the four hexadecimal digits of a number. -/
def nibbles (n : Nat) : List Nat := [n / 4096, n / 256 % 16, n / 16 % 16, n % 16]

/-- The spellings of a code point in a string between quotes `q`. -/
inductive Spells (q : Quote) : CodePoint → Text → Prop where
  | plain {c : CodePoint} (hq : c ≠ q.char) (hb : c ≠ '\\') : Spells q c [c]
  | number {c : CodePoint} {digits : Text} (hc : c.val ≤ 0xFFFF)
      (hdigits : List.Forall₂ IsHexDigit (nibbles c.val) digits) :
      Spells q c (CodePoint.ofChar '\\' :: CodePoint.ofChar 'u' :: digits)
  | control {letter c : Char} (h : (letter, c) ∈ controls) :
      Spells q c [CodePoint.ofChar '\\', CodePoint.ofChar letter]
  | escaped {c : CodePoint} (hc : c ∉ Text.ofString "ntrbfv0u") :
      Spells q c [CodePoint.ofChar '\\', c]

/-- A hexadecimal digit has its value, and ends no string. -/
theorem IsHexDigit.classes {value : Nat} (hvalue : value < 16) {d : CodePoint}
    (h : IsHexDigit value d) :
    d.hexValue? = some value ∧ d ≠ '\\' ∧ ∀ q : Quote, d ≠ q.char := by
  have hall : ∀ n < 16, ∀ d ∈ [CodePoint.ofChar (Nat.digitChar n), (Nat.digitChar n).toUpper],
      d.hexValue? = some n ∧ d ≠ '\\' ∧ d ≠ '\'' ∧ d ≠ '"' := by
    decide
  obtain ⟨hhex, hback, hsingle, hdouble⟩ :=
    hall value hvalue d (by rcases h with rfl | rfl <;> simp)
  refine ⟨hhex, hback, ?_⟩
  rintro (_ | _)
  · exact hsingle
  · exact hdouble

/-- The four values are values of hexadecimal digits. -/
theorem lt_of_mem_nibbles {n value : Nat} (hn : n ≤ 0xFFFF) (h : value ∈ nibbles n) :
    value < 16 := by
  simp only [nibbles, List.mem_cons, List.not_mem_nil, or_false] at h
  omega

-- ============================================================ meaning

namespace Escape

/-- A code point that is no backslash stands for itself. -/
theorem decode_plain {c : CodePoint} (hc : c ≠ '\\') (rest : Text) :
    decode (c :: rest) = c :: decode rest := by
  rw [decode.eq_def]
  simp only [if_neg hc]

/-- A backslash and a code point that is no `u` stand for one code point. -/
theorem decode_escaped {c : CodePoint} (hc : c ≠ 'u') (rest : Text) :
    decode (CodePoint.ofChar '\\' :: c :: rest) = meaning c :: decode rest := by
  rw [decode, if_pos rfl, Quote.quad?_eq_none hc]

/-- A backslash and four digits behind `u` stand for a number. -/
theorem decode_number {c : CodePoint} {t : Text} (h : quad? t = some c) :
    decode (CodePoint.ofChar '\\' :: t) = c :: decode (t.drop 5) := by
  rw [decode.eq_def]
  simp only [if_true, h]

/-- The four digits of a number are worth the number. -/
theorem quad?_digits {c : CodePoint} (hc : c.val ≤ 0xFFFF) {digits : Text}
    (h : List.Forall₂ IsHexDigit (nibbles c.val) digits) (rest : Text) :
    quad? (CodePoint.ofChar 'u' :: (digits ++ rest)) = some c := by
  have hvalue : ∀ value ∈ nibbles c.val, ∀ d, IsHexDigit value d → d.hexValue? = some value :=
    fun value hmem d hd => (hd.classes (lt_of_mem_nibbles hc hmem)).1
  rw [nibbles] at h hvalue
  obtain _ | ⟨h₃, _ | ⟨h₂, _ | ⟨h₁, _ | ⟨h₀, _ | _⟩⟩⟩⟩ := h
  have hnumber : ((c.val / 4096 * 16 + c.val / 256 % 16) * 16 + c.val / 16 % 16) * 16 + c.val % 16
      = c.val := by
    omega
  simp only [List.cons_append, List.nil_append, quad?, if_pos,
    hvalue _ (by simp) _ h₃, hvalue _ (by simp) _ h₂, hvalue _ (by simp) _ h₁,
    hvalue _ (by simp) _ h₀, Option.bind_eq_bind, Option.bind_some, hnumber]
  rw [CodePoint.ofNat, dif_pos c.isLt]
  rfl

/-- The letter of a control character stands for it. -/
theorem meaning_control {letter c : Char} (h : (letter, c) ∈ controls) :
    CodePoint.ofChar letter ≠ 'u' ∧ meaning letter = c := by
  have hall : ∀ p ∈ controls, CodePoint.ofChar p.1 ≠ 'u' ∧ meaning p.1 = p.2 := by decide
  exact hall _ h

/-- A code point that names nothing stands for itself behind a backslash. -/
theorem meaning_other {c : CodePoint} (h : c ∉ Text.ofString "ntrbfv0u") :
    c ≠ 'u' ∧ meaning c = c := by
  have hletters : ∀ p ∈ named, CodePoint.ofChar p.1 ∈ Text.ofString "ntrbfv0u" := by decide
  constructor
  · rintro rfl
    exact h (by decide)
  · have hnone : named.find? (fun p => c = p.1) = none := by
      rw [List.find?_eq_none]
      intro p hp hc
      exact h (of_decide_eq_true hc ▸ hletters p hp)
    rw [meaning, hnone]

end Escape

-- ========================================================== one by one

namespace Spells

variable {q : Quote} {c : CodePoint} {w : Text}

/-- A spelling does not close the string. -/
theorem quotedBody (h : Spells q c w) {rest : Text} (hrest : QuotedBody q.char rest) :
    QuotedBody q.char (w ++ rest) := by
  cases h with
  | plain hq hb => exact .plain hq hb hrest
  | number hc hdigits =>
      -- the digits behind the `u` are ordinary code points of the body
      have hplain : ∀ {values : List Nat} {digits : Text}, (∀ v ∈ values, v < 16) →
          List.Forall₂ IsHexDigit values digits → QuotedBody q.char (digits ++ rest) := by
        intro values digits hvalues hdigits
        induction hdigits with
        | nil => exact hrest
        | cons hd _ ih =>
            obtain ⟨-, hback, hquote⟩ := hd.classes (hvalues _ List.mem_cons_self)
            exact .plain (hquote q) hback (ih fun v hv => hvalues v (List.mem_cons_of_mem _ hv))
      exact .escaped _ (hplain (fun v hv => lt_of_mem_nibbles hc hv) hdigits)
  | control h => exact .escaped _ hrest
  | escaped hc => exact .escaped _ hrest

/-- A spelling stands for its code point, whatever follows. -/
theorem decode_append (h : Spells q c w) (rest : Text) :
    Escape.decode (w ++ rest) = c :: Escape.decode rest := by
  cases h with
  | plain hq hb => exact Escape.decode_plain hb rest
  | @number c digits hc hdigits =>
      have hlength : digits.length = 4 := hdigits.length_eq.symm
      rw [List.cons_append, List.cons_append,
        Escape.decode_number (Escape.quad?_digits hc hdigits rest), List.drop_succ_cons,
        ← hlength, List.drop_left]
  | control h =>
      obtain ⟨hu, hmeaning⟩ := Escape.meaning_control h
      exact hmeaning ▸ Escape.decode_escaped hu rest
  | escaped hc =>
      obtain ⟨hu, hmeaning⟩ := Escape.meaning_other hc
      exact (Escape.decode_escaped hu rest).trans (by rw [hmeaning])

end Spells

-- ============================================================ strings

section
variable {q : Quote} {s : Text} {ws : List Text}

/-- Spellings put together do not close the string. -/
theorem quotedBody_flatten (h : List.Forall₂ (Spells q) s ws) :
    QuotedBody q.char ws.flatten := by
  induction h with
  | nil => exact .nil
  | cons hw _ ih => exact hw.quotedBody ih

/-- Spellings put together stand for the string. -/
theorem decode_flatten (h : List.Forall₂ (Spells q) s ws) : Escape.decode ws.flatten = s := by
  induction h with
  | nil => rw [List.flatten_nil, Escape.decode]
  | cons hw _ ih => rw [List.flatten_cons, hw.decode_append, ih]

/-- Spellings between quotes are the token of the text that they spell. -/
theorem begins_spelled (h : List.Forall₂ (Spells q) s ws) :
    (TokenKind.text s).Begins (quotation q.char ws.flatten) (quotation q.char ws.flatten) := by
  refine ⟨q.char, ws.flatten, ?_, quotedBody_flatten h, rfl, List.prefix_rfl,
    (decode_flatten h).symm⟩
  cases q
  · exact .inl rfl
  · exact .inr rfl

/-- A string is read back from any of its spellings: between quotes they
are one token, at the start of the text and with the string as its value,
and the reader that takes up the text finds its end behind the token. -/
theorem spelled_string_exact (h : List.Forall₂ (Spells q) s ws) :
    tokenize 0 (quotation q.char ws.flatten) = .ok [⟨.text s, 0⟩]
      ∧ ∀ offset d, ReadM.begin (quotation q.char ws.flatten) offset d
        = some (.ok (), ⟨[⟨some (.text s), 0⟩, ⟨none, (quotation q.char ws.flatten).length⟩], 0,
            offset⟩) := by
  have htokens : tokenize 0 (quotation q.char ws.flatten) = .ok [⟨.text s, 0⟩] := by
    rw [tokenize, Lexeme.tokens_of_begins (begins_spelled h), List.drop_length, Lexeme.split]
    rfl
  refine ⟨htokens, ?_⟩
  intro offset d
  rw [ReadM.begin, htokens]
  rfl

end

/-- Neighbours do not join: a backslash behind a backslash does not take the
digits that follow, and an escaped quote closes nothing. The last spelling
is that of a surrogate. -/
theorem spelled_string_exact_neighbours :
    tokenize 0 (Text.ofString "'\\\\u0041\\n\\'\\uD83d'")
      = .ok [⟨.text (Text.ofString "\\u0041\n'" ++ [⟨0xD83D, by decide⟩]), 0⟩] := by
  have hspelled : List.Forall₂ (Spells .single)
      (Text.ofString "\\u0041\n'" ++ [⟨0xD83D, by decide⟩])
      (["\\\\", "u", "0", "0", "4", "1", "\\n", "\\'", "\\uD83d"].map Text.ofString) := by
    have hdigits : List.Forall₂ IsHexDigit (nibbles 0xD83D) (Text.ofString "D83d") :=
      .cons (.inr rfl) (.cons (.inl rfl) (.cons (.inl rfl) (.cons (.inl rfl) .nil)))
    refine .cons (.escaped ?_) (.cons (.plain ?_ ?_) (.cons (.plain ?_ ?_) (.cons (.plain ?_ ?_)
      (.cons (.plain ?_ ?_) (.cons (.plain ?_ ?_) (.cons (.control ?_) (.cons (.escaped ?_)
      (.cons (.number ?_ hdigits) .nil))))))))
    all_goals decide
  exact (spelled_string_exact hspelled).1

end KeyHarvest
