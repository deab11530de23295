/-
Pieces and forms. The lexer cuts a text at the piece that its first code
point decides on. If a token stands there by its form, the piece is that
token, with its value (`tokens_of_begins`); a blank is passed over; a text
that is stuck is refused with the fault of its first code point, and an
integer of too many digits for its length. Nothing else can happen, since
a text begins with one of these (`exists_begins`).
-/
import KeyHarvest.Proofs.Expr.Forms

namespace KeyHarvest

-- ============================================================= pieces

namespace Lexeme

/-- The piece at the start of a text. -/
def first (c : CodePoint) (cs : Text) : Lexeme :=
  ⟨(extent c cs).1, c :: cs.take (extent c cs).2⟩

/-- The tokens of a text, opened at the first piece. -/
theorem tokens_split (p : Nat) (c : CodePoint) (cs : Text) :
    tokens p (split (c :: cs))
      = (first c cs).token? p >>= fun o =>
          (tokens (p + (first c cs).raw.length)
            (split ((c :: cs).drop (first c cs).raw.length))).map (o.toList ++ ·) := by
  have hdrop : (c :: cs).drop (first c cs).raw.length = cs.drop (extent c cs).2 := by
    rw [first, List.length_cons, List.drop_succ_cons, List.length_take]
    rcases Nat.le_total (extent c cs).2 cs.length with h | h
    · rw [Nat.min_eq_left h]
    · rw [Nat.min_eq_right h, List.drop_length, List.drop_of_length_le h]
  rw [hdrop, split, tokens]
  rfl

/-- What is no quote of code is none of the three. -/
theorem not_mem_codeQuotes {c : CodePoint} (h : c ∉ codeQuotes) :
    ¬ (c = '\'' ∨ c = '"') ∧ c ≠ '`' := by
  simpa [codeQuotes, or_assoc, and_assoc] using h

/-- A name goes as far as its code points do. -/
theorem first_word {c : CodePoint} (hc : startsWord c = true) (cs : Text) :
    first c cs = ⟨.word, c :: cs.takeWhile continuesWord⟩ := by
  obtain ⟨hblank, hsingle, hdouble, htick, hpoint, hdigit⟩ := startsWord_classes hc
  have hextent : extent c cs = (.word, (cs.takeWhile continuesWord).length) := by
    rw [extent, if_neg (by rw [hblank]; decide), if_neg (not_or.2 ⟨hsingle, hdouble⟩),
      if_neg htick, if_neg (not_not_intro (numberLength_eq_zero hdigit hpoint)), if_pos hc]
  rw [first, hextent, ← List.prefix_iff_eq_take.1 (List.takeWhile_prefix _)]

/-- Where a number is counted, the piece is the number. -/
theorem first_number {c : CodePoint} {cs : Text} (h : numberLength (c :: cs) ≠ 0) :
    first c cs = ⟨.number, (c :: cs).take (numberLength (c :: cs))⟩ := by
  have hhead : c.isDigit = true ∨ c = '.' := by
    by_contra hc
    rw [not_or] at hc
    exact h (numberLength_eq_zero (Bool.eq_false_iff.2 hc.1) hc.2)
  obtain ⟨hblank, hquote⟩ := isDigit_classes hhead
  obtain ⟨hsingle, htick⟩ := not_mem_codeQuotes hquote
  have hextent : extent c cs = (.number, numberLength (c :: cs) - 1) := by
    rw [extent, if_neg (by rw [hblank]; decide), if_neg hsingle, if_neg htick, if_pos h]
  obtain ⟨n, hn⟩ := Nat.exists_eq_succ_of_ne_zero h
  rw [first, hextent, hn, List.take_succ_cons]
  rfl

/-- A quotation goes to the first quote that nothing escapes. -/
theorem first_quotation {q : CodePoint} (hq : q ∈ codeQuotes) {b : Text} (hb : QuotedBody q b)
    (r : Text) :
    first q (b ++ q :: r) = ⟨if q = '`' then .template else .text, quotation q b⟩ := by
  have hclose : Quoted.close? q (b ++ q :: r) = some (b.length + 1) := by
    refine hb.close?_append ?_ r
    rintro rfl
    exact absurd hq (by decide)
  have htake : (b ++ q :: r).take (b.length + 1) = b ++ [q] := by
    rw [List.take_length_add_append, List.take_succ_cons, List.take_zero]
  have hextent : extent q (b ++ q :: r)
      = (if q = '`' then .template else .text, b.length + 1) := by
    have hcases : q = '\'' ∨ q = '"' ∨ q = '`' := by simpa [codeQuotes] using hq
    rw [extent, hclose]
    rcases hcases with rfl | rfl | rfl <;> rfl
  rw [first, hextent, htake]
  rfl

/-- What begins like nothing else is an operator, a mark or stray. -/
theorem extent_of_operator {c : CodePoint} {cs : Text} (hblank : c.isBlank = false)
    (hquote : c ∉ codeQuotes) (hnumber : numberLength (c :: cs) = 0)
    (hword : startsWord c = false) :
    extent c cs
      = match operator? (c :: cs) with
        | some op => (.operator op, op.spelling.length - 1)
        | none =>
            match Mark.ofCodePoint? c with
            | some m => (.mark m, 0)
            | none => (.stray, 0) := by
  obtain ⟨hsingle, htick⟩ := not_mem_codeQuotes hquote
  have hunblank : ¬ c.isBlank = true := by simp [hblank]
  have hwordless : ¬ startsWord c = true := by simp [hword]
  unfold extent
  exact (if_neg hunblank).trans ((if_neg hsingle).trans ((if_neg htick).trans
    ((if_neg (not_not_intro hnumber)).trans (if_neg hwordless))))

/-- An operator is cut off with its spelling. -/
theorem first_operator {c : CodePoint} {cs : Text} {op : Operator}
    (h : operator? (c :: cs) = some op) : first c cs = ⟨.operator op, op.spelling⟩ := by
  have hpre := (Operator.longest_of_operator? h).1.begins
  obtain ⟨d, ds, hop, hblank, hquote, hdigit, hpoint, hword⟩ := op.spelling_head
  rw [hop] at hpre
  obtain ⟨rfl, hds⟩ := List.cons_prefix_cons.1 hpre
  have hextent : extent d cs = (.operator op, op.spelling.length - 1) := by
    rw [extent_of_operator hblank hquote (numberLength_eq_zero hdigit hpoint) hword, h]
  rw [first, hextent, hop, List.length_cons, Nat.add_sub_cancel,
    ← List.prefix_iff_eq_take.1 hds]

/-- No operator begins with a mark. -/
theorem operator?_char (m : Mark) (cs : Text) : operator? ((m.char : CodePoint) :: cs) = none := by
  rw [Operator.operator?_eq_none]
  intro op hop
  obtain ⟨c, w, hw, -⟩ := op.spelling_head
  refine m.char_classes.2.2.2 op op.mem_all ?_
  have hpre := hop.begins
  rw [hw] at hpre ⊢
  obtain ⟨rfl, -⟩ := List.cons_prefix_cons.1 hpre
  exact List.cons_prefix_cons.2 ⟨rfl, List.nil_prefix⟩

/-- A mark is cut off by itself where no numeral stands. -/
theorem first_mark (m : Mark) {cs : Text} (h : numberLength ((m.char : CodePoint) :: cs) = 0) :
    first m.char cs = ⟨.mark m, [(m.char : CodePoint)]⟩ := by
  obtain ⟨hblank, hquote, hword, -⟩ := m.char_classes
  have hextent := extent_of_operator hblank hquote h hword
  rw [operator?_char, Mark.ofCodePoint?_char] at hextent
  rw [first, hextent]
  rfl

end Lexeme

-- ============================================================== texts

namespace TokenKind.Begins

variable {t raw : Text} {k : TokenKind Text}

/-- A token begins its text. -/
theorem isPrefix (h : k.Begins t raw) : raw <+: t := by
  cases k with
  | keyword w => exact h.1.begins
  | name n => exact h.1.begins
  | text v =>
      obtain ⟨q, b, -, -, -, hpre, -⟩ := h
      exact hpre
  | number v => exact h.1.begins
  | template b => exact h.2.2
  | operator op =>
      rw [h.1]
      exact h.2.1.begins
  | mark m => exact h.2.1

/-- What is cut off as a token is the text of one. -/
theorem isTokenText (h : k.Begins t raw) : IsTokenText raw := by
  cases k with
  | keyword w => exact .word h.1.holds
  | name n => exact .word h.1.holds
  | text v =>
      obtain ⟨q, b, hq, hb, rfl, -⟩ := h
      exact .quotation (by rcases hq with rfl | rfl <;> decide) hb
  | number v => exact .number h.1.holds
  | template b =>
      rw [h.2.1]
      exact .quotation (by decide) h.1
  | operator op =>
      rw [h.1]
      exact .operator op
  | mark m =>
      rw [h.1]
      exact .mark m

end TokenKind.Begins

/-- A token begins with a code point that is no blank. -/
theorem IsTokenText.exists_cons {w : Text} (h : IsTokenText w) :
    ∃ c cs, w = c :: cs ∧ c.isBlank = false := by
  cases h with
  | word h =>
      cases w with
      | nil => exact absurd h Bool.false_ne_true
      | cons c cs => exact ⟨c, cs, rfl, (startsWord_classes (isWord_cons.1 h).1).1⟩
  | number h =>
      obtain ⟨n, rfl⟩ := h
      obtain ⟨c, cs, hn, hc⟩ := n.spelling_head
      exact ⟨c, cs, hn, (isDigit_classes hc).1⟩
  | @quotation q b hq h =>
      have hquotes : ∀ c ∈ codeQuotes, c.isBlank = false := by decide
      exact ⟨q, b ++ [q], rfl, hquotes q hq⟩
  | operator op =>
      obtain ⟨c, cs, hop, hc, -⟩ := op.spelling_head
      exact ⟨c, cs, hop, hc⟩
  | mark m => exact ⟨_, [], rfl, m.char_classes.1⟩

/-- A token is at least one code point long. -/
theorem TokenKind.Begins.length_pos {t raw : Text} {k : TokenKind Text} (h : k.Begins t raw) :
    0 < raw.length := by
  obtain ⟨c, cs, rfl, -⟩ := h.isTokenText.exists_cons
  exact Nat.zero_lt_succ _

namespace Lexeme

/-- What stands at the start of a text is cut off there, with its value. -/
theorem token?_of_begins {c : CodePoint} {cs raw : Text} {k : TokenKind Text}
    (h : k.Begins (c :: cs) raw) (p : Nat) :
    (first c cs).raw = raw ∧ (first c cs).token? p = .ok (some ⟨k, p⟩) := by
  cases k with
  | keyword w =>
      obtain ⟨hlongest, hraw⟩ := h
      have hc := hlongest.startsWord
      have hfirst : c :: cs.takeWhile continuesWord = raw :=
        (isLongest_word hc cs).unique hlongest
      rw [first_word hc, hfirst, hraw]
      refine ⟨rfl, ?_⟩
      cases w <;> rfl
  | name n =>
      obtain ⟨hlongest, rfl, hkeyword⟩ := h
      have hc := hlongest.startsWord
      have hfirst : c :: cs.takeWhile continuesWord = raw :=
        (isLongest_word hc cs).unique hlongest
      have hnone : Keyword.ofName? raw = none := by
        rw [Keyword.ofName?, List.find?_eq_none]
        intro w _
        simpa using (hkeyword w).symm
      rw [first_word hc, hfirst]
      refine ⟨rfl, ?_⟩
      simp only [token?, hnone]
  | text v =>
      obtain ⟨q, b, hq, hb, rfl, hpre, rfl⟩ := h
      obtain ⟨r, hr⟩ := hpre
      rw [quotation, List.cons_append, List.append_assoc, List.singleton_append] at hr
      obtain ⟨rfl, rfl⟩ := List.cons.inj hr
      rw [first_quotation (by rcases hq with rfl | rfl <;> decide) hb]
      refine ⟨rfl, ?_⟩
      rcases hq with rfl | rfl
      · simp only [token?, if_neg (show CodePoint.ofChar '\'' ≠ CodePoint.ofChar '`' by decide),
          inner_quotation]
      · simp only [token?, if_neg (show CodePoint.ofChar '"' ≠ CodePoint.ofChar '`' by decide),
          inner_quotation]
  | number v =>
      obtain ⟨hlongest, n, hn, hdenotes⟩ := h
      have hne := numberLength_ne_zero hlongest.holds hlongest.begins
      have hfirst : (c :: cs).take (numberLength (c :: cs)) = raw :=
        (isLongest_numeral hne).unique hlongest
      rw [first_number hne, hfirst]
      refine ⟨rfl, ?_⟩
      rw [token?, ← hn, Numeral.numeral_eq_ok.2 hdenotes]
      rfl
  | template b =>
      obtain ⟨hb, rfl, hpre⟩ := h
      obtain ⟨r, hr⟩ := hpre
      rw [quotation, List.cons_append, List.append_assoc, List.singleton_append] at hr
      obtain ⟨rfl, rfl⟩ := List.cons.inj hr
      rw [first_quotation (by decide) hb]
      refine ⟨rfl, ?_⟩
      simp only [token?, if_pos, inner_quotation]
  | operator op =>
      obtain ⟨rfl, hspelled, hlongest⟩ := h
      rw [first_operator (Operator.operator?_of_longest hspelled hlongest)]
      exact ⟨rfl, rfl⟩
  | mark m =>
      obtain ⟨rfl, hpre, hnumeral⟩ := h
      obtain ⟨rfl, -⟩ := List.cons_prefix_cons.1 hpre
      have hzero : numberLength ((m.char : CodePoint) :: cs) = 0 := by
        by_contra hne
        exact hnumeral _ (exists_numeral hne) (List.take_prefix _ _)
      rw [first_mark m hzero]
      exact ⟨rfl, rfl⟩

/-- A token stands in front of the tokens behind it. -/
theorem tokens_of_begins {t raw : Text} {k : TokenKind Text} (h : k.Begins t raw) (p : Nat) :
    tokens p (split t)
      = (tokens (p + raw.length) (split (t.drop raw.length))).map (⟨k, p⟩ :: ·) := by
  have hpos : 0 < t.length := Nat.lt_of_lt_of_le h.length_pos h.isPrefix.length_le
  obtain ⟨c, cs, rfl⟩ := List.exists_cons_of_length_pos hpos
  obtain ⟨hraw, htoken⟩ := token?_of_begins h p
  rw [tokens_split, htoken, hraw]
  rfl

/-- A blank has no token. -/
theorem tokens_of_isBlank {c : CodePoint} (hc : c.isBlank = true) (cs : Text) (p : Nat) :
    tokens p (split (c :: cs)) = tokens (p + 1) (split cs) := by
  have hfirst : ∀ (c : CodePoint) (cs : Text), c.isBlank = true →
      first c cs = ⟨.blank, c :: cs.takeWhile CodePoint.isBlank⟩ := by
    intro c cs hc
    have hextent : extent c cs = (.blank, (cs.takeWhile CodePoint.isBlank).length) := by
      rw [extent, if_pos hc]
    rw [first, hextent, ← List.prefix_iff_eq_take.1 (List.takeWhile_prefix _)]
  have hskip : ∀ (c : CodePoint) (cs : Text) (p : Nat), c.isBlank = true →
      tokens p (split (c :: cs))
        = tokens (p + ((cs.takeWhile CodePoint.isBlank).length + 1))
            (split (cs.drop (cs.takeWhile CodePoint.isBlank).length)) := by
    intro c cs p hc
    rw [tokens_split, hfirst c cs hc, List.length_cons, List.drop_succ_cons]
    simp only [token?]
    generalize tokens _ _ = rest
    cases rest <;> rfl
  rw [hskip c cs p hc]
  cases cs with
  | nil => rfl
  | cons d ds =>
      by_cases hd : d.isBlank = true
      · rw [hskip d ds (p + 1) hd, List.takeWhile_cons_of_pos hd, List.length_cons,
          List.drop_succ_cons]
        congr 1
        omega
      · rw [List.takeWhile_cons_of_neg hd, List.length_nil, List.drop_zero]

/-- An integer of too many digits is refused. -/
theorem tokens_of_overflows {t : Text} {digits : Nat} (h : Overflows t digits) (p : Nat) :
    tokens p (split t) = .error (.oversized digits) := by
  obtain ⟨n, hlongest, hint, rfl, hlong⟩ := h
  have hne := numberLength_ne_zero hlongest.holds hlongest.begins
  obtain ⟨c, cs, rfl⟩ : ∃ c cs, t = c :: cs := by
    cases t with
    | nil => exact absurd rfl hne
    | cons c cs => exact ⟨c, cs, rfl⟩
  have hfirst : first c cs = ⟨.number, n.spelling⟩ := by
    rw [first_number hne, (isLongest_numeral hne).unique hlongest]
  rw [tokens_split, hfirst, token?, Numeral.numeral_eq_error.2 ⟨hint, hlong, rfl⟩]
  rfl

/-- Where a text is stuck, it is refused. -/
theorem tokens_of_stuck {t : Text} (h : Stuck t) (p : Nat) :
    tokens p (split t) = .error (.malformed (Stuck.fault t) p) := by
  obtain ⟨c, cs, rfl, hblank, hnone⟩ := h
  have hextent : extent c cs = (.stray, 0) := by
    -- each kind of token would be a token text at the front, and there is none
    by_cases hquote : c ∈ codeQuotes
    · have hclose : Quoted.close? c cs = none := by
        cases hfound : Quoted.close? c cs with
        | none => rfl
        | some n =>
            obtain ⟨b, r, hb, rfl, -⟩ := QuotedBody.of_close? hfound
            refine absurd (IsTokenText.quotation hquote hb) (hnone _ ?_)
            exact List.cons_prefix_cons.2 ⟨rfl, r, by simp⟩
      have hcases : c = '\'' ∨ c = '"' ∨ c = '`' := by simpa [codeQuotes] using hquote
      rw [extent, hclose]
      rcases hcases with rfl | rfl | rfl <;> rfl
    · have hnumber : numberLength (c :: cs) = 0 := by
        by_contra hne
        exact hnone _ (List.take_prefix _ _) (.number (exists_numeral hne))
      have hword : startsWord c = false := by
        rw [← Bool.not_eq_true]
        intro hc
        exact hnone _ (isLongest_word hc cs).begins (.word (isLongest_word hc cs).holds)
      have hop : operator? (c :: cs) = none := by
        rw [Operator.operator?_eq_none]
        intro op hop
        exact hnone _ hop.begins (.operator op)
      have hmark : Mark.ofCodePoint? c = none := by
        cases hfound : Mark.ofCodePoint? c with
        | none => rfl
        | some m =>
            have hc : c = m.char := by simpa using List.find?_some hfound
            refine absurd (IsTokenText.mark m) (hnone _ ?_)
            rw [hc]
            exact List.cons_prefix_cons.2 ⟨rfl, List.nil_prefix⟩
      rw [extent_of_operator hblank hquote hnumber hword, hop, hmark]
  rw [tokens_split, first, hextent, token?]
  simp only [List.take_zero, Stuck.fault]
  by_cases hquote : c ∈ codeQuotes
  · have hcases : c = '\'' ∨ c = '"' ∨ c = '`' := by simpa [codeQuotes] using hquote
    rw [if_pos hcases, if_pos hquote]
    rfl
  · have hcases : ¬ (c = '\'' ∨ c = '"' ∨ c = '`') := by simpa [codeQuotes] using hquote
    rw [if_neg hcases, if_neg hquote]
    rfl

end Lexeme

/-- An operator that is spelled is found, or one that it begins with. -/
theorem Operator.exists_spelled {op : Operator} {t : Text} (h : op.spelling <+: t) :
    ∃ op' : Operator, op'.Spelled t := by
  by_cases hop : op = .optional
  · refine ⟨.question, ?_, by simp⟩
    rw [hop] at h
    exact List.IsPrefix.trans ⟨[CodePoint.ofChar '.'], rfl⟩ h
  · exact ⟨op, h, fun h' => absurd h' hop⟩

/-- A text is stuck where none of the classes goes on. -/
theorem stuck_of_none {c : CodePoint} {cs : Text} (hblank : c.isBlank = false)
    (hquote : c ∈ codeQuotes → Quoted.close? c cs = none)
    (hnumber : Lexeme.numberLength (c :: cs) = 0) (hword : Lexeme.startsWord c = false)
    (hop : Lexeme.operator? (c :: cs) = none) (hmark : Mark.ofCodePoint? c = none) :
    Stuck (c :: cs) := by
  refine ⟨c, cs, rfl, hblank, ?_⟩
  intro w hpre hw
  cases hw with
  | word h =>
      cases w with
      | nil => exact absurd h Bool.false_ne_true
      | cons d ds =>
          obtain ⟨rfl, -⟩ := List.cons_prefix_cons.1 hpre
          rw [(isWord_cons.1 h).1] at hword
          cases hword
  | number h => exact numberLength_ne_zero h hpre hnumber
  | @quotation q b hq h =>
      obtain ⟨rfl, r, rfl⟩ := List.cons_prefix_cons.1 hpre
      have hback : q ≠ '\\' := by
        rintro rfl
        exact absurd hq (by decide)
      have hclose := hquote hq
      rw [List.append_assoc, List.singleton_append, h.close?_append hback] at hclose
      cases hclose
  | operator op =>
      obtain ⟨op', hop'⟩ := Operator.exists_spelled hpre
      exact Operator.operator?_eq_none.1 hop op' hop'
  | mark m =>
      obtain ⟨rfl, -⟩ := List.cons_prefix_cons.1 hpre
      rw [m.ofCodePoint?_char] at hmark
      cases hmark

/-- A quotation that closes is a token. -/
theorem begins_of_close? {q : CodePoint} (hq : q ∈ codeQuotes) {cs : Text} {n : Nat}
    (h : Quoted.close? q cs = some n) : ∃ raw k, TokenKind.Begins (q :: cs) raw k := by
  obtain ⟨b, r, hb, rfl, -⟩ := QuotedBody.of_close? h
  have hpre : quotation q b <+: q :: (b ++ q :: r) :=
    List.cons_prefix_cons.2 ⟨rfl, r, by simp⟩
  have hcases : (q = '\'' ∨ q = '"') ∨ q = '`' := by simpa [codeQuotes, or_assoc] using hq
  rcases hcases with hq | rfl
  · exact ⟨quotation q b, .text (Escape.decode b), q, b, hq, hb, rfl, hpre, rfl⟩
  · exact ⟨quotation '`' b, .template b, hb, rfl, hpre⟩

/-- A text begins with a blank, with a token or with an integer of too many
digits, or it is stuck. -/
theorem exists_begins {c : CodePoint} (hblank : c.isBlank = false) (cs : Text) :
    (∃ raw k, TokenKind.Begins (c :: cs) raw k) ∨ (∃ n, Overflows (c :: cs) n)
      ∨ Stuck (c :: cs) := by
  by_cases hnumber : Lexeme.numberLength (c :: cs) ≠ 0
  · have hlongest := isLongest_numeral hnumber
    obtain ⟨n, hn⟩ := hlongest.holds
    cases hvalue : Lexeme.numeral n.spelling with
    | ok v => exact .inl ⟨_, .number v, hlongest, n, hn, Numeral.numeral_eq_ok.1 hvalue⟩
    | error e =>
        obtain ⟨hint, hlong, -⟩ := Numeral.numeral_eq_error.1 hvalue
        exact .inr (.inl ⟨_, n, hn ▸ hlongest, hint, rfl, hlong⟩)
  by_cases hword : Lexeme.startsWord c = true
  · have hlongest := isLongest_word hword cs
    by_cases hkeyword : ∃ w : Keyword, c :: cs.takeWhile Lexeme.continuesWord = w.spelling
    · obtain ⟨w, hw⟩ := hkeyword
      exact .inl ⟨_, .keyword w, hlongest, hw⟩
    · exact .inl ⟨_, .name _, hlongest, rfl, not_exists.1 hkeyword⟩
  cases hop : Lexeme.operator? (c :: cs) with
  | some op => exact .inl ⟨_, .operator op, rfl, Operator.longest_of_operator? hop⟩
  | none =>
      rw [not_not] at hnumber
      cases hmark : Mark.ofCodePoint? c with
      | some m =>
          have hc : c = m.char := by simpa using List.find?_some hmark
          subst hc
          refine .inl ⟨_, .mark m, rfl, List.cons_prefix_cons.2 ⟨rfl, List.nil_prefix⟩, ?_⟩
          intro w hw hpre
          exact numberLength_ne_zero hw hpre hnumber
      | none =>
          by_cases hclose : c ∈ codeQuotes ∧ ∃ n, Quoted.close? c cs = some n
          · obtain ⟨hq, n, hn⟩ := hclose
            exact .inl (begins_of_close? hq hn)
          · refine .inr (.inr (stuck_of_none hblank ?_ hnumber (Bool.eq_false_iff.2 hword) hop hmark))
            intro hq
            rw [Option.eq_none_iff_forall_ne_some]
            exact fun n hn => hclose ⟨hq, n, hn⟩

end KeyHarvest
