/-
The forms of tokens, stated without the lexer. A token stands at the start
of a text when what it is written as has its form and goes as far as the
form allows (`TokenKind.Begins`): a name and a numeral are the longest of
their kind, a quotation ends at the first quote that nothing escapes, and
an operator is the longest that is spelled there. Where nothing has a form,
the text is stuck (`Stuck`).

The lexer decides by the first code point and then counts. For each class
of tokens its count is the one that the form asks for: this is shown here
class by class, and put together in `Pieces`.
-/
import KeyHarvest.Proofs.Expr.Numeral
import KeyHarvest.Proofs.Expr.Quoting

namespace KeyHarvest

-- ============================================================== forms

/-- The longest beginning of a text that has a form. -/
structure IsLongest (form : Text → Prop) (t w : Text) : Prop where
  holds : form w
  begins : w <+: t
  longest : ∀ v, form v → v <+: t → v.length ≤ w.length

/-- The form of names, reserved or not. -/
def IsWord (w : Text) : Prop := Text.isIdentifier w = true

/-- The form of numbers. -/
def IsNumeral (w : Text) : Prop := ∃ n : Numeral, n.spelling = w

/-- What stands between two quotes `q`: a quote among it is escaped, and so
is a backslash. -/
inductive QuotedBody (q : CodePoint) : Text → Prop where
  | nil : QuotedBody q []
  | plain {c : CodePoint} {b : Text} (hq : c ≠ q) (hb : c ≠ '\\') (h : QuotedBody q b) :
      QuotedBody q (c :: b)
  | escaped {b : Text} (c : CodePoint) (h : QuotedBody q b) :
      QuotedBody q (CodePoint.ofChar '\\' :: c :: b)

/-- A body between its quotes. -/
def quotation (q : CodePoint) (body : Text) : Text := q :: (body ++ [q])

/-- An operator is spelled at the start of a text. A conditional before a
number such as `.5` is not an optional access. -/
structure Operator.Spelled (op : Operator) (t : Text) : Prop where
  begins : op.spelling <+: t
  notPoint : op = .optional → ∀ c cs, t.drop 2 = c :: cs → c.isDigit = false

/-- The texts that can be a token. -/
inductive IsTokenText : Text → Prop where
  | word {w : Text} (h : IsWord w) : IsTokenText w
  | number {w : Text} (h : IsNumeral w) : IsTokenText w
  | quotation {q : CodePoint} {b : Text} (hq : q ∈ codeQuotes) (h : QuotedBody q b) :
      IsTokenText (quotation q b)
  | operator (op : Operator) : IsTokenText op.spelling
  | mark (m : Mark) : IsTokenText [CodePoint.ofChar m.char]

/-- A text that begins with neither a blank nor a token. -/
def Stuck (t : Text) : Prop :=
  ∃ c cs, t = c :: cs ∧ c.isBlank = false ∧ ∀ w, w <+: t → ¬ IsTokenText w

/-- What is wrong where a text is stuck. -/
def Stuck.fault (t : Text) : ExprFault :=
  match t with
  | c :: _ => if c ∈ codeQuotes then .unterminatedQuote else .unexpectedCharacter c
  | [] => .unexpectedEnd

/-- A token that is written as `raw` stands at the start of the text `t`. -/
def TokenKind.Begins (t raw : Text) : TokenKind Text → Prop
  | .keyword w => IsLongest IsWord t raw ∧ raw = w.spelling
  | .name n => IsLongest IsWord t raw ∧ raw = n ∧ ∀ w : Keyword, n ≠ w.spelling
  | .text v =>
      ∃ q b, (q = CodePoint.ofChar '\'' ∨ q = CodePoint.ofChar '"') ∧ QuotedBody q b
        ∧ raw = quotation q b ∧ raw <+: t ∧ v = Escape.decode b
  | .number v =>
      IsLongest IsNumeral t raw ∧ ∃ n : Numeral, n.spelling = raw ∧ n.Denotes v
        ∧ (n.IsInteger → n.whole.length ≤ maxIntegerDigits)
  | .template b => QuotedBody '`' b ∧ raw = quotation '`' b ∧ raw <+: t
  | .operator op =>
      raw = op.spelling ∧ op.Spelled t
        ∧ ∀ op' : Operator, op'.Spelled t → op'.spelling.length ≤ op.spelling.length
  | .mark m => raw = [CodePoint.ofChar m.char] ∧ raw <+: t ∧ ∀ w, IsNumeral w → ¬ w <+: t

/-- The number at the start of a text is an integer of more digits than are
read. -/
def Overflows (t : Text) (digits : Nat) : Prop :=
  ∃ n : Numeral, IsLongest IsNumeral t n.spelling ∧ n.IsInteger ∧ n.whole.length = digits
    ∧ maxIntegerDigits < digits

-- ============================================================= blanks

/-- The blanks, one by one. -/
def blanks : List CodePoint :=
  blankRanges.flatMap fun r => (List.range' r.1 (r.2 + 1 - r.1)).map CodePoint.ofNat

/-- Every blank is in the list of blanks. -/
theorem mem_blanks {c : CodePoint} (h : c.isBlank = true) : c ∈ blanks := by
  obtain ⟨r, hr, hc⟩ := List.any_eq_true.1 h
  simp only [CodePoint.within, Bool.and_eq_true, decide_eq_true_eq] at hc
  refine List.mem_flatMap.2 ⟨r, hr, List.mem_map.2 ⟨c.val, ?_, ?_⟩⟩
  · rw [List.mem_range'_1]
    omega
  · rw [CodePoint.ofNat, dif_pos c.isLt]

/-- A blank is no part of a name or a number. -/
theorem isBlank_classes {c : CodePoint} (h : c.isBlank = true) :
    Lexeme.continuesWord c = false ∧ Lexeme.startsWord c = false
      ∧ Lexeme.isNumberChar c = false := by
  have hall : ∀ c ∈ blanks, Lexeme.continuesWord c = false ∧ Lexeme.startsWord c = false
      ∧ Lexeme.isNumberChar c = false := by decide +kernel
  exact hall c (mem_blanks h)

/-- A digit begins nothing but a number. -/
theorem isDigit_classes {c : CodePoint} (h : c.isDigit = true ∨ c = '.') :
    c.isBlank = false ∧ c ∉ codeQuotes := by
  constructor
  · rw [← Bool.not_eq_true]
    intro hblank
    have hnumber := (isBlank_classes hblank).2.2
    rcases h with h | rfl
    · simp [Lexeme.isNumberChar, h] at hnumber
    · exact absurd hnumber (by decide)
  · rcases h with h | rfl
    · intro hq
      have hquotes : ∀ c ∈ codeQuotes, c.isDigit = false := by decide
      rw [hquotes c hq] at h
      cases h
    · decide

-- ============================================================== names

/-- Of one form a text has one longest beginning. -/
theorem IsLongest.unique {form : Text → Prop} {t v w : Text} (hv : IsLongest form t v)
    (hw : IsLongest form t w) : v = w := by
  have hle := hw.longest v hv.holds hv.begins
  have hge := hv.longest w hw.holds hw.begins
  exact (List.prefix_of_prefix_length_le hv.begins hw.begins hle).eq_of_length
    (Nat.le_antisymm hle hge)

/-- A word is a code point that starts one, and others that go on. -/
theorem isWord_cons {c : CodePoint} {cs : Text} :
    IsWord (c :: cs)
      ↔ Lexeme.startsWord c = true ∧ ∀ d ∈ cs, Lexeme.continuesWord d = true := by
  rw [IsWord, Text.isIdentifier, Bool.and_eq_true, List.all_eq_true]

/-- The first code point of a name and the run behind it are the longest
name. -/
theorem isLongest_word {c : CodePoint} (hc : Lexeme.startsWord c = true) (cs : Text) :
    IsLongest IsWord (c :: cs) (c :: cs.takeWhile Lexeme.continuesWord) where
  holds := isWord_cons.2 ⟨hc, fun d hd => List.mem_takeWhile_imp hd⟩
  begins := List.cons_prefix_cons.2 ⟨rfl, List.takeWhile_prefix _⟩
  longest := by
    intro v hv hpre
    cases v with
    | nil => exact Nat.zero_le _
    | cons d ds =>
        obtain ⟨-, hds⟩ := isWord_cons.1 hv
        obtain ⟨-, r, rfl⟩ := List.cons_prefix_cons.1 hpre
        rw [List.takeWhile_append_of_pos hds, List.length_cons, List.length_cons,
          List.length_append]
        omega

/-- A longest word starts as words do. -/
theorem IsLongest.startsWord {c : CodePoint} {cs w : Text} (h : IsLongest IsWord (c :: cs) w) :
    Lexeme.startsWord c = true := by
  obtain ⟨hw, hpre, -⟩ := h
  cases w with
  | nil => exact absurd hw Bool.false_ne_true
  | cons d ds =>
      obtain ⟨rfl, -⟩ := List.cons_prefix_cons.1 hpre
      exact (isWord_cons.1 hw).1

-- ============================================================ numbers

namespace Numeral

/-- A numeral begins with a digit or a point. -/
theorem spelling_head (n : Numeral) :
    ∃ c cs, n.spelling = c :: cs ∧ (c.isDigit = true ∨ c = '.') := by
  rw [spelling]
  cases hm : n.mantissa with
  | nil => exact absurd hm n.mantissa_ne_nil
  | cons c cs =>
      refine ⟨c, _, rfl, ?_⟩
      rw [mantissa] at hm
      cases hw : n.whole with
      | cons d ds =>
          rw [hw] at hm
          obtain ⟨rfl, -⟩ := List.cons.inj hm
          exact .inl (n.isDigits d (by rw [hw]; exact List.mem_cons_self))
      | nil =>
          rw [hw] at hm
          cases hf : n.fraction? with
          | none => rw [hf] at hm; cases hm
          | some f =>
              rw [hf] at hm
              cases hm
              exact .inr rfl

end Numeral

/-- A numeral of the lexer is the longest one. -/
theorem isLongest_numeral {t : Text} (h : Lexeme.numberLength t ≠ 0) :
    IsLongest IsNumeral t (t.take (Lexeme.numberLength t)) where
  holds := Lexeme.exists_numeral h
  begins := List.take_prefix _ _
  longest := by
    rintro v ⟨n, rfl⟩ hpre
    have hle := Lexeme.length_le_numberLength n hpre
    rw [List.length_take]
    exact Nat.le_min.2 ⟨hle, hpre.length_le⟩

/-- A text begins with a number when a numeral is counted there. -/
theorem numberLength_ne_zero {t w : Text} (hw : IsNumeral w) (hpre : w <+: t) :
    Lexeme.numberLength t ≠ 0 := by
  obtain ⟨n, rfl⟩ := hw
  have hle := Lexeme.length_le_numberLength n hpre
  obtain ⟨c, cs, hc, -⟩ := n.spelling_head
  rw [hc, List.length_cons] at hle
  omega

-- ========================================================= quotations

namespace QuotedBody

/-- The quote behind a body is the first that nothing escapes. -/
theorem close?_append {q : CodePoint} (hq : q ≠ '\\') {b : Text} (h : QuotedBody q b) (t : Text) :
    Quoted.close? q (b ++ q :: t) = some (b.length + 1) := by
  induction h with
  | nil => exact Quoted.close?_self q t
  | plain hc hb _ ih =>
      rw [List.cons_append, Quoted.close?_cons hc hb, ih]
      rfl
  | escaped c _ ih =>
      rw [List.cons_append, List.cons_append, Quoted.close?_backslash hq, ih]
      rfl

/-- Where a quote is found, a body stands in front of it. -/
theorem of_close? {q : CodePoint} {t : Text} {n : Nat} (h : Quoted.close? q t = some n) :
    ∃ b r, QuotedBody q b ∧ t = b ++ q :: r ∧ n = b.length + 1 := by
  fun_induction Quoted.close? q t generalizing n with
  | case1 => cases h
  | case2 cs =>
      cases h
      exact ⟨[], cs, .nil, rfl, rfl⟩
  | case3 hc => cases h
  | case4 d ds hc ih =>
      obtain ⟨k, hk, rfl⟩ := Option.map_eq_some_iff.1 h
      obtain ⟨b, r, hb, rfl, rfl⟩ := ih hk
      exact ⟨_, r, .escaped d hb, rfl, rfl⟩
  | case5 c cs hc hb ih =>
      obtain ⟨k, hk, rfl⟩ := Option.map_eq_some_iff.1 h
      obtain ⟨b, r, hbody, rfl, rfl⟩ := ih hk
      exact ⟨_, r, .plain hc hb hbody, rfl, rfl⟩

end QuotedBody

/-- Between the quotes of a quotation stands its body. -/
theorem inner_quotation (q : CodePoint) (b : Text) : Lexeme.inner (quotation q b) = b := by
  rw [Lexeme.inner, quotation, List.drop_one, List.tail_cons, List.dropLast_concat]

-- ========================================================== operators

namespace Operator

/-- Every operator is in the list of operators. -/
theorem mem_all (op : Operator) : op ∈ all := by
  cases op with
  | binary op => cases op <;> decide
  | _ => decide

/-- The longer spellings come first. -/
theorem pairwise_all : all.Pairwise fun a b => b.spelling.length ≤ a.spelling.length := by
  decide

/-- An operator is known by its spelling. -/
theorem spelling_injective {a b : Operator} (h : a.spelling = b.spelling) : a = b := by
  have hall : ∀ a ∈ all, ∀ b ∈ all, a.spelling = b.spelling → a = b := by decide +kernel
  exact hall a a.mem_all b b.mem_all h

/-- What an operator begins with begins nothing else. -/
theorem spelling_head (op : Operator) :
    ∃ c cs, op.spelling = c :: cs ∧ c.isBlank = false ∧ c ∉ codeQuotes ∧ c.isDigit = false
      ∧ c ≠ '.' ∧ Lexeme.startsWord c = false := by
  have hall : ∀ op ∈ all, ∃ c ∈ op.spelling.head?, c.isBlank = false ∧ c ∉ codeQuotes
      ∧ c.isDigit = false ∧ c ≠ '.' ∧ Lexeme.startsWord c = false := by decide +kernel
  obtain ⟨c, hc, h⟩ := hall op op.mem_all
  obtain ⟨cs, hcs⟩ := List.head?_eq_some_iff.1 hc
  exact ⟨c, cs, hcs, h⟩

theorem digitRun_eq_zero {t : Text} :
    Lexeme.digitRun t = 0 ↔ ∀ c cs, t = c :: cs → c.isDigit = false := by
  rw [Lexeme.digitRun, List.length_eq_zero_iff]
  cases t with
  | nil => simp
  | cons c cs => simp

/-- Whether an operator is spelled can be computed. -/
theorem spelled_iff {op : Operator} {t : Text} :
    op.Spelled t
      ↔ (op.spelling.isPrefixOf t && !(op == .optional && Lexeme.digitRun (t.drop 2) != 0))
          = true := by
  have hpoint : (!(op == .optional && Lexeme.digitRun (t.drop 2) != 0)) = true
      ↔ (op = .optional → Lexeme.digitRun (t.drop 2) = 0) := by simp [imp_iff_not_or]
  rw [Bool.and_eq_true, List.isPrefixOf_iff_prefix, hpoint, digitRun_eq_zero]
  exact ⟨fun h => ⟨h.begins, h.notPoint⟩, fun h => ⟨h.1, h.2⟩⟩

/-- Of two operators that are spelled at one place, those of one length are
the same. -/
theorem eq_of_spelled {a b : Operator} {t : Text} (ha : a.Spelled t) (hb : b.Spelled t)
    (h : a.spelling.length = b.spelling.length) : a = b :=
  spelling_injective
    ((List.prefix_of_prefix_length_le ha.begins hb.begins (Nat.le_of_eq h)).eq_of_length h)

/-- No operator is read where none is spelled. -/
theorem operator?_eq_none {t : Text} :
    Lexeme.operator? t = none ↔ ∀ op : Operator, ¬ op.Spelled t := by
  rw [Lexeme.operator?, List.find?_eq_none]
  constructor
  · intro h op hop
    exact h op op.mem_all (spelled_iff.1 hop)
  · intro h op _ hop
    exact h op (spelled_iff.2 hop)

/-- The operator that is found is the longest that is spelled. -/
theorem longest_of_operator? {op : Operator} {t : Text} (h : Lexeme.operator? t = some op) :
    op.Spelled t ∧ ∀ op' : Operator, op'.Spelled t → op'.spelling.length ≤ op.spelling.length := by
  obtain ⟨hop, before, after, hall, hbefore⟩ := List.find?_eq_some_iff_append.1 h
  refine ⟨spelled_iff.2 hop, ?_⟩
  intro op' hop'
  have hmem := op'.mem_all
  have hsorted := pairwise_all
  rw [hall] at hmem hsorted
  rcases List.mem_append.1 hmem with hmem | hmem
  · have hnot := hbefore op' hmem
    rw [spelled_iff.1 hop'] at hnot
    cases hnot
  · rcases List.mem_cons.1 hmem with rfl | hmem
    · exact Nat.le_refl _
    · exact (List.pairwise_cons.1 (List.pairwise_append.1 hsorted).2.1).1 op' hmem

/-- The longest operator that is spelled is read. -/
theorem operator?_of_longest {op : Operator} {t : Text} (hop : op.Spelled t)
    (hlongest : ∀ op' : Operator, op'.Spelled t → op'.spelling.length ≤ op.spelling.length) :
    Lexeme.operator? t = some op := by
  cases hfound : Lexeme.operator? t with
  | none => exact absurd hop (operator?_eq_none.1 hfound op)
  | some op' =>
      obtain ⟨hop', hlongest'⟩ := longest_of_operator? hfound
      rw [eq_of_spelled hop hop' (Nat.le_antisymm (hlongest' op hop) (hlongest op' hop'))]

end Operator

-- ============================================================== marks

namespace Mark

/-- A mark is no part of anything else, a point in front of a digit
apart. -/
theorem char_classes (m : Mark) :
    (m.char : CodePoint).isBlank = false ∧ (m.char : CodePoint) ∉ codeQuotes
      ∧ Lexeme.startsWord m.char = false ∧ ∀ op ∈ Operator.all, ¬ [(m.char : CodePoint)] <+: op.spelling := by
  cases m <;> decide +kernel

/-- A mark is known by its code point. -/
theorem ofCodePoint?_char (m : Mark) : ofCodePoint? m.char = some m := by
  cases m <;> rfl

end Mark

end KeyHarvest
