/-
Cutting a print into tokens. A token that is spelled and followed by a
space, or by the end of the text, is one piece of the text, and its value
is the token again; so tokens with one space between neighbours are read
back as they are (`tokens_join_spell`).

Pieces are cut by the class of their first code point. The classes are
tables, and what is needed of them is that a letter, a digit, a quote and
an operator are never mistaken for one another. All of these are ASCII,
where the tables are small enough to go through.
-/
import KeyHarvest.Proofs.Expr.Printer

namespace KeyHarvest

-- ============================================================ classes

/-- A place where every token ends: the end of the text, or a space. -/
def Breaks : Text → Prop
  | [] => True
  | c :: _ => c = ' '

/-- The ASCII code points. -/
def ascii (n : Fin 128) : CodePoint := ⟨n, by omega⟩

/-- The code points below 128 are those that are listed. -/
theorem exists_ascii {c : CodePoint} (h : c.val < 128) : ∃ n, c = ascii n :=
  ⟨⟨c.val, h⟩, rfl⟩

/-- The first code point of a name begins nothing else. -/
theorem startsWord_classes {c : CodePoint} (h : Lexeme.startsWord c = true) :
    c.isBlank = false ∧ c ≠ '\'' ∧ c ≠ '"' ∧ c ≠ '`' ∧ c ≠ '.' ∧ c.isDigit = false := by
  have hlt : c.val < 128 := by
    simp only [Lexeme.startsWord, CodePoint.isAsciiLetter, CodePoint.within, Bool.or_eq_true,
      Bool.and_eq_true, decide_eq_true_eq] at h
    rcases h with (h | rfl) | rfl
    · omega
    · decide
    · decide
  obtain ⟨n, rfl⟩ := exists_ascii hlt
  revert n
  decide +kernel

/-- An ASCII digit is a digit of its value, and begins nothing but a
number. -/
theorem isAsciiDigit_classes {c : CodePoint} (h : c.isAsciiDigit = true) :
    c.isBlank = false ∧ c ≠ '\'' ∧ c ≠ '"' ∧ c ≠ '`' ∧ c.digitValue? = some (c.val - 48) := by
  have hlt : c.val < 128 := by
    simp only [CodePoint.isAsciiDigit, CodePoint.within, Bool.and_eq_true,
      decide_eq_true_eq] at h
    omega
  obtain ⟨n, rfl⟩ := exists_ascii hlt
  revert n
  decide +kernel

/-- The ten digits are digits. -/
theorem isDigit_of_isAsciiDigit {c : CodePoint} (h : c.isAsciiDigit = true) :
    c.isDigit = true := by
  rw [CodePoint.isDigit, (isAsciiDigit_classes h).2.2.2.2]
  rfl

/-- A run of a class that a space is not in ends at a break. -/
theorem takeWhile_append_of_breaks {p : CodePoint → Bool} {w t : Text} (hp : p ' ' = false)
    (hw : ∀ c ∈ w, p c = true) (ht : Breaks t) : (w ++ t).takeWhile p = w := by
  rw [List.takeWhile_append_of_pos hw]
  cases t with
  | nil => rw [List.takeWhile_nil, List.append_nil]
  | cons c r =>
      rw [show c = ' ' from ht, List.takeWhile_cons_of_neg (by rw [hp]; decide), List.append_nil]

-- ============================================================= digits

/-- A number is written in the ten digits. -/
theorem isAsciiDigit_of_mem_ofNat {n : Nat} {c : CodePoint} (h : c ∈ Text.ofNat n) :
    c.isAsciiDigit = true := by
  obtain ⟨d, hd, rfl⟩ := List.mem_map.1 h
  have hdigit := Nat.isDigit_of_mem_toDigits (by decide) (by decide) hd
  simp only [Char.isDigit, Bool.and_eq_true, decide_eq_true_eq, ge_iff_le, UInt32.le_iff_toNat_le]
    at hdigit
  simp only [CodePoint.isAsciiDigit, CodePoint.within, Bool.and_eq_true, decide_eq_true_eq]
  exact hdigit

/-- The digits of a numeral are worth the number. -/
theorem digitsValue_ofNat (n : Nat) : Text.digitsValue (Text.ofNat n) = n := by
  have hfold : ∀ (ds : List Char) (m : Nat), (∀ d ∈ ds, (CodePoint.ofChar d).isAsciiDigit = true) →
      (ds.map CodePoint.ofChar).foldl (fun n c => 10 * n + c.digitValue?.getD 0) m
        = Nat.ofDigitChars 10 ds m := by
    intro ds
    induction ds with
    | nil => intro m _; rfl
    | cons d ds ih =>
        intro m hds
        rw [List.map_cons, List.foldl_cons, Nat.ofDigitChars_cons,
          (isAsciiDigit_classes (hds d List.mem_cons_self)).2.2.2.2]
        exact ih _ fun x hx => hds x (List.mem_cons_of_mem d hx)
  rw [Text.digitsValue, Text.ofNat, hfold, Nat.ofDigitChars_ten_toDigits]
  intro d hd
  exact isAsciiDigit_of_mem_ofNat (List.mem_map_of_mem hd)

theorem length_ofNat_le {n : Nat} (h : n < 10 ^ maxIntegerDigits) :
    (Text.ofNat n).length ≤ maxIntegerDigits := by
  rw [Text.ofNat, List.length_map]
  exact (Nat.length_toDigits_le_iff (by decide) (by decide)).2 h

/-- Digits before a break are a number by themselves. -/
theorem numberLength_append {w t : Text} (hw : ∀ c ∈ w, c.isAsciiDigit = true) (hne : w ≠ [])
    (ht : Breaks t) : Lexeme.numberLength (w ++ t) = w.length := by
  have hrun : Lexeme.digitRun (w ++ t) = w.length := by
    rw [Lexeme.digitRun, takeWhile_append_of_breaks (by decide +kernel)
      (fun c hc => isDigit_of_isAsciiDigit (hw c hc)) ht]
  have hmantissa : Lexeme.mantissaLength (w ++ t) = w.length := by
    unfold Lexeme.mantissaLength
    simp only [hrun, List.drop_left]
    cases t with
    | nil => rfl
    | cons c r =>
        rw [show c = ' ' from ht]
        rfl
  have hexponent : Lexeme.exponentLength t = 0 := by
    cases t with
    | nil => rfl
    | cons c r =>
        rw [show c = ' ' from ht]
        rfl
  have hpos := List.length_pos_iff.2 hne
  rw [Lexeme.numberLength, hmantissa, if_neg (by omega), List.drop_left, hexponent, Nat.add_zero]

/-- What begins with neither a digit nor a point is no number. -/
theorem numberLength_eq_zero {c : CodePoint} {cs : Text} (hdigit : c.isDigit = false)
    (hpoint : c ≠ '.') : Lexeme.numberLength (c :: cs) = 0 := by
  have hrun : Lexeme.digitRun (c :: cs) = 0 := by
    rw [Lexeme.digitRun, List.takeWhile_cons_of_neg (by rw [hdigit]; decide)]
    rfl
  have hmantissa : Lexeme.mantissaLength (c :: cs) = 0 := by
    unfold Lexeme.mantissaLength
    simp only [hrun, List.drop_zero]
    rw [if_neg hpoint]
  rw [Lexeme.numberLength, if_pos hmantissa]

/-- A number within the limit is read as it is written. -/
theorem numeral_ofNat {n : Nat} (h : n < 10 ^ maxIntegerDigits) :
    Lexeme.numeral (Text.ofNat n) = .ok (.integer n) := by
  have hall : (Text.ofNat n).takeWhile CodePoint.isDigit = Text.ofNat n := by
    have := takeWhile_append_of_breaks (p := CodePoint.isDigit) (w := Text.ofNat n) (t := [])
      (by decide +kernel) (fun c hc => isDigit_of_isAsciiDigit (isAsciiDigit_of_mem_ofNat hc))
      trivial
    rwa [List.append_nil] at this
  unfold Lexeme.numeral
  simp only [hall, List.drop_length, List.isEmpty_nil, if_pos, length_ofNat_le h, digitsValue_ofNat]

-- ============================================================= quotes

namespace Quote

/-- No quote is a backslash. -/
theorem char_ne_backslash (q : Quote) : ('\\' : CodePoint) ≠ q.char := by
  cases q <;> decide

/-- A guarded code point closes nothing. -/
theorem close?_guard (q : Quote) (c : CodePoint) (t : Text) :
    Quoted.close? q.char (q.guard c ++ t)
      = (Quoted.close? q.char t).map (· + (q.guard c).length) := by
  unfold guard
  by_cases hc : c = '\\' ∨ c = q.char
  · rw [if_pos hc]
    show Quoted.close? q.char (CodePoint.ofChar '\\' :: c :: t) = _
    rw [Quoted.close?, if_neg q.char_ne_backslash, if_pos rfl]
    rfl
  · rw [if_neg hc]
    rw [not_or] at hc
    show Quoted.close? q.char (c :: t) = _
    rw [Quoted.close?.eq_def]
    simp only [if_neg hc.2, if_neg hc.1]
    rfl

/-- An escaped text ends at the quote after it, not before. -/
theorem close?_escape (q : Quote) (v t : Text) :
    Quoted.close? q.char (q.escape v ++ q.char :: t) = some ((q.escape v).length + 1) := by
  induction v with
  | nil =>
      show Quoted.close? q.char (q.char :: t) = some 1
      rw [Quoted.close?.eq_def]
      exact if_pos rfl
  | cons c cs ih =>
      rw [escape, List.flatMap_cons, List.append_assoc, close?_guard, ← escape, ih,
        List.length_append, Option.map_some, Nat.add_comm, Nat.add_assoc]

/-- Only a `u` begins the four digits of a code point. -/
theorem quad?_eq_none {c : CodePoint} {cs : Text} (h : c ≠ 'u') :
    Escape.quad? (c :: cs) = none := by
  unfold Escape.quad?
  split
  · next heq =>
      cases heq
      rw [if_neg h]
  · rfl

/-- A guarded code point stands for itself. -/
theorem decode_guard (q : Quote) (c : CodePoint) (t : Text) :
    Escape.decode (q.guard c ++ t) = c :: Escape.decode t := by
  unfold guard
  by_cases hc : c = '\\' ∨ c = q.char
  · have hself : c ≠ 'u' ∧ Escape.meaning c = c := by
      rcases hc with rfl | rfl
      · decide
      · cases q <;> decide
    rw [if_pos hc]
    show Escape.decode (CodePoint.ofChar '\\' :: c :: t) = _
    rw [Escape.decode, if_pos rfl, quad?_eq_none hself.1]
    simp only [hself.2]
  · rw [if_neg hc]
    rw [not_or] at hc
    show Escape.decode (c :: t) = _
    rw [Escape.decode.eq_def]
    simp only [if_neg hc.1]

/-- An escaped text stands for the text. -/
theorem decode_escape (q : Quote) (v : Text) : Escape.decode (q.escape v) = v := by
  induction v with
  | nil =>
      show Escape.decode [] = []
      rw [Escape.decode]
  | cons c cs ih => rw [escape, List.flatMap_cons, decode_guard, ← escape, ih]

end Quote

-- ============================================================= pieces

/-- A word goes on up to a break. -/
theorem extent_word {c : CodePoint} {w t : Text} (hc : Lexeme.startsWord c = true)
    (hw : ∀ d ∈ w, Lexeme.continuesWord d = true) (ht : Breaks t) :
    Lexeme.extent c (w ++ t) = (.word, w.length) := by
  obtain ⟨hblank, hsingle, hdouble, htick, hpoint, hdigit⟩ := startsWord_classes hc
  have hnumber : Lexeme.numberLength (c :: (w ++ t)) = 0 := numberLength_eq_zero hdigit hpoint
  unfold Lexeme.extent
  rw [if_neg (by rw [hblank]; decide), if_neg (not_or.2 ⟨hsingle, hdouble⟩), if_neg htick,
    if_neg (not_not_intro hnumber), if_pos hc,
    takeWhile_append_of_breaks (by decide +kernel) hw ht]

/-- A number without a point goes on up to a break. -/
theorem extent_number {c : CodePoint} {w t : Text} (h : ∀ d ∈ c :: w, d.isAsciiDigit = true)
    (ht : Breaks t) : Lexeme.extent c (w ++ t) = (.number, w.length) := by
  obtain ⟨hblank, hsingle, hdouble, htick, -⟩ := isAsciiDigit_classes (h c List.mem_cons_self)
  have hnumber := numberLength_append h (List.cons_ne_nil c w) ht
  rw [List.cons_append, List.length_cons] at hnumber
  unfold Lexeme.extent
  rw [if_neg (by rw [hblank]; decide), if_neg (not_or.2 ⟨hsingle, hdouble⟩), if_neg htick, hnumber,
    if_pos (Nat.succ_ne_zero _), Nat.add_sub_cancel]

/-- A quoted text is one piece, whatever follows. -/
theorem extent_text (q : Quote) (v t : Text) :
    Lexeme.extent q.char (q.escape v ++ q.char :: t) = (.text, (q.escape v).length + 1) := by
  have hblank : q.char.isBlank = false := by cases q <;> decide
  have hquote : q.char = '\'' ∨ q.char = '"' := by cases q <;> decide
  unfold Lexeme.extent
  rw [if_neg (by rw [hblank]; decide), if_pos hquote, q.close?_escape]

/-- An operator before a break is one piece: no longer one begins there. -/
theorem extent_operator (op : Operator) {c : CodePoint} {w t : Text} (h : op.spelling = c :: w)
    (ht : Breaks t) : Lexeme.extent c (w ++ t) = (.operator op, w.length) := by
  cases t with
  | nil =>
      cases op with
      | binary op => cases op <;> cases h <;> rfl
      | _ => cases h; rfl
  | cons d t =>
      have hd : d = ' ' := ht
      subst hd
      cases op with
      | binary op => cases op <;> cases h <;> rfl
      | _ => cases h; rfl

/-- A mark before a break is one piece: a point without digits is no
number. -/
theorem extent_mark (m : Mark) {t : Text} (ht : Breaks t) :
    Lexeme.extent m.char t = (.mark m, 0) := by
  cases t with
  | nil => cases m <;> rfl
  | cons d t =>
      have hd : d = ' ' := ht
      subst hd
      cases m <;> rfl

-- ============================================================= tokens

namespace TokenKind

/-- The tokens that have a spelling of their own. A name that spells a
reserved word is that word, and backtick literals are left out. -/
def Spellable : TokenKind Text → Prop
  | .name n => Text.isIdentifier n = true ∧ Keyword.ofName? n = none
  | .number (.integer n) => n < 10 ^ maxIntegerDigits
  | .number (.float _) => False
  | .template _ => False
  | _ => True

/-- The class of the piece that a token is spelled as. -/
def pieceKind : TokenKind Text → LexemeKind
  | .keyword _ | .name _ => .word
  | .text _ => .text
  | .number _ => .number
  | .template _ => .template
  | .operator op => .operator op
  | .mark m => .mark m

end TokenKind

/-- A text that is cut off as one piece of a class before every break. -/
def CutsAs (kind : LexemeKind) (raw : Text) : Prop :=
  ∃ c w, raw = c :: w ∧ c.isBlank = false
    ∧ ∀ t, Breaks t → Lexeme.extent c (w ++ t) = (kind, w.length)

/-- A keyword is spelled as an identifier. -/
theorem isIdentifier_spelling (word : Keyword) : Text.isIdentifier word.spelling = true := by
  cases word <;> decide

/-- An identifier is cut off as one word. -/
theorem cutsAs_of_isIdentifier {n : Text} (h : Text.isIdentifier n = true) : CutsAs .word n := by
  cases n with
  | nil => cases h
  | cons c w =>
      obtain ⟨hc, hw⟩ := Bool.and_eq_true_iff.1 h
      refine ⟨c, w, rfl, (startsWord_classes hc).1, ?_⟩
      intro t ht
      exact extent_word hc (List.all_eq_true.1 hw) ht

/-- A token that is spelled is one piece before every break. -/
theorem cutsAs_spell (q : Quote) {k : TokenKind Text} (h : k.Spellable) :
    CutsAs k.pieceKind (q.spell k) := by
  cases k with
  | keyword word => exact cutsAs_of_isIdentifier (isIdentifier_spelling word)
  | name n => exact cutsAs_of_isIdentifier h.1
  | text v =>
      refine ⟨q.char, q.escape v ++ [q.char], rfl, by cases q <;> decide, ?_⟩
      intro t _
      rw [List.append_assoc, List.length_append]
      exact extent_text q v t
  | number value =>
      cases value with
      | float x => exact h.elim
      | integer n =>
          show CutsAs .number (Text.ofNat n)
          cases hn : Text.ofNat n with
          | nil =>
              rw [Text.ofNat, List.map_eq_nil_iff] at hn
              exact absurd hn Nat.toDigits_ne_nil
          | cons c w =>
              have hdigits : ∀ d ∈ c :: w, d.isAsciiDigit = true := by
                intro d hd
                rw [← hn] at hd
                exact isAsciiDigit_of_mem_ofNat hd
              refine ⟨c, w, rfl, (isAsciiDigit_classes (hdigits c List.mem_cons_self)).1, ?_⟩
              intro t ht
              exact extent_number hdigits ht
  | template body => exact h.elim
  | operator op =>
      have hop : ∃ c w, op.spelling = c :: w ∧ c.isBlank = false := by
        cases op with
        | binary op => cases op <;> exact ⟨_, _, rfl, by decide⟩
        | _ => exact ⟨_, _, rfl, by decide⟩
      obtain ⟨c, w, hcw, hblank⟩ := hop
      refine ⟨c, w, hcw, hblank, ?_⟩
      intro t ht
      exact extent_operator op hcw ht
  | mark m =>
      refine ⟨m.char, [], rfl, by cases m <;> decide, ?_⟩
      intro t ht
      exact extent_mark m ht

/-- The value of a spelled token is the token. -/
theorem token?_spell (q : Quote) {k : TokenKind Text} (h : k.Spellable) (position : Nat) :
    Lexeme.token? position ⟨k.pieceKind, q.spell k⟩ = .ok (some ⟨k, position⟩) := by
  cases k with
  | keyword word => cases word <;> rfl
  | name n =>
      have hname : Keyword.ofName? n = none := h.2
      unfold Lexeme.token?
      dsimp only [TokenKind.pieceKind, Quote.spell, TokenKind.shown]
      rw [hname]
  | text v =>
      have hinner : Lexeme.inner (q.spell (.text v)) = q.escape v := by
        show ((q.char :: (q.escape v ++ [q.char])).drop 1).dropLast = _
        rw [List.drop_one, List.tail_cons, List.dropLast_concat]
      show Except.ok (some (Token.mk (.text (Escape.decode (Lexeme.inner _))) position)) = _
      rw [hinner, q.decode_escape]
  | number value =>
      cases value with
      | float x => exact h.elim
      | integer n =>
          show (Lexeme.numeral (Text.ofNat n)).map _ = _
          rw [numeral_ofNat h]
          rfl
  | template body => exact h.elim
  | operator op => rfl
  | mark m => rfl

/-- A text that is cut off comes first among the pieces. -/
theorem split_append {kind : LexemeKind} {raw t : Text} (h : CutsAs kind raw) (ht : Breaks t) :
    Lexeme.split (raw ++ t) = ⟨kind, raw⟩ :: Lexeme.split t := by
  obtain ⟨c, w, rfl, -, hext⟩ := h
  rw [List.cons_append, Lexeme.split, hext t ht, List.take_left, List.drop_left]

/-- A space before a token is a piece of its own. -/
theorem split_space {kind : LexemeKind} {raw t : Text} (h : CutsAs kind raw) :
    Lexeme.split (CodePoint.ofChar ' ' :: (raw ++ t))
      = ⟨.blank, [' ']⟩ :: Lexeme.split (raw ++ t) := by
  obtain ⟨c, w, rfl, hblank, -⟩ := h
  have hext : Lexeme.extent ' ' (c :: (w ++ t)) = (.blank, 0) := by
    unfold Lexeme.extent
    rw [if_pos (by decide), List.takeWhile_cons_of_neg (by rw [hblank]; decide)]
    rfl
  rw [List.cons_append, Lexeme.split, hext]
  rfl

theorem join_singleton (a : Text) : Text.join [' '] [a] = a := by
  simp [Text.join, List.intercalate]

theorem join_cons_cons (a b : Text) (l : List Text) :
    Text.join [' '] (a :: b :: l) = a ++ CodePoint.ofChar ' ' :: Text.join [' '] (b :: l) := by
  simp [Text.join, List.intercalate]

theorem exists_join_cons (a : Text) (l : List Text) :
    ∃ r, Text.join [' '] (a :: l) = a ++ r := by
  cases l with
  | nil => exact ⟨[], by rw [join_singleton, List.append_nil]⟩
  | cons b l => exact ⟨_, join_cons_cons a b l⟩

/-- Tokens with a space between neighbours are read back. -/
theorem tokens_join_spell (q : Quote) {ks : List (TokenKind Text)} (h : ∀ k ∈ ks, k.Spellable)
    (hne : ks ≠ []) (position : Nat) :
    ∃ ts, Lexeme.tokens position (Lexeme.split (Text.join [' '] (ks.map q.spell))) = .ok ts
      ∧ ts.map Token.kind = ks := by
  induction ks generalizing position with
  | nil => exact absurd rfl hne
  | cons k ks ih =>
      have hk := h k List.mem_cons_self
      have hcut := cutsAs_spell q hk
      cases ks with
      | nil =>
          have hsplit : Lexeme.split (Text.join [' '] ([k].map q.spell))
              = [⟨k.pieceKind, q.spell k⟩] := by
            have hone := split_append (t := []) hcut trivial
            rw [List.append_nil] at hone
            rw [List.map_cons, List.map_nil, join_singleton, hone, Lexeme.split]
          refine ⟨[⟨k, position⟩], ?_, rfl⟩
          rw [hsplit, Lexeme.tokens, token?_spell q hk]
          rfl
      | cons k' ks =>
          have hks : ∀ x ∈ k' :: ks, x.Spellable := fun x hx => h x (List.mem_cons_of_mem k hx)
          obtain ⟨ts, hts, hkinds⟩ := ih hks (List.cons_ne_nil _ _)
            (position + (q.spell k).length + 1)
          obtain ⟨r, hr⟩ := exists_join_cons (q.spell k') (ks.map q.spell)
          have hsplit : Lexeme.split (Text.join [' '] ((k :: k' :: ks).map q.spell))
              = ⟨k.pieceKind, q.spell k⟩ :: ⟨.blank, [' ']⟩
                :: Lexeme.split (Text.join [' '] ((k' :: ks).map q.spell)) := by
            have hbreak : Breaks (CodePoint.ofChar ' ' :: (q.spell k' ++ r)) := rfl
            rw [List.map_cons, List.map_cons, join_cons_cons, hr, split_append hcut hbreak,
              split_space (cutsAs_spell q (hks k' List.mem_cons_self))]
          refine ⟨⟨k, position⟩ :: ts, ?_, by rw [List.map_cons, hkinds]⟩
          rw [hsplit, Lexeme.tokens, token?_spell q hk, Lexeme.tokens]
          show ((Lexeme.tokens (position + (q.spell k).length + 1) _ >>= _) >>= _) = _
          rw [hts]
          rfl

end KeyHarvest
