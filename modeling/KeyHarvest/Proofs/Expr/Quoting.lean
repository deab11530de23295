/-
Quoting, as it is seen by the lexer and by the searches for the end of
code. The lexer cuts a text into pieces, and a quotation is one piece. The
searches know nothing of pieces: they walk over single code points and
remember whether a quotation is open. Both agree, because every piece is
of one of three shapes (`Lexeme.Shape`): a quotation from its opening to
its closing quote, a single mark, or a run without quotes and brackets. A
search comes out of each of them as it went in, a mark apart, on which it
may decide (`find_of_passes`).

So code that is cut into tokens ends for the searches where it ends for
the lexer, between the braces of an interpolation as between the
parentheses of a block; the searches themselves are in `Enclosed`.
-/
import KeyHarvest.Markup.Mask
import KeyHarvest.Proofs.Expr.Offset
import KeyHarvest.Proofs.Expr.Oversized

namespace KeyHarvest

-- ============================================================= shapes

/-- The quotes, as the searches for the end of code know them. -/
def codeQuotes : Text := ['\'', '"', '`']

/-- The code points on which a search for the end of code may decide. -/
def codeBrackets : Text := ['(', ')', '{', '}']

/-- A code point that no search takes notice of. -/
def Neutral (c : CodePoint) : Prop := c ∉ codeQuotes ∧ c ∉ codeBrackets

instance (c : CodePoint) : Decidable (Neutral c) := inferInstanceAs (Decidable (_ ∧ _))

/-- A class of code points without quotes and brackets. -/
theorem neutral_of_class {p : CodePoint → Bool}
    (h : ∀ c ∈ codeQuotes ++ codeBrackets, p c = false) {c : CodePoint} (hc : p c = true) :
    Neutral c := by
  have hnot : c ∉ codeQuotes ++ codeBrackets := by
    intro hmem
    rw [h c hmem] at hc
    cases hc
  exact ⟨fun hq => hnot (List.mem_append_left _ hq), fun hb => hnot (List.mem_append_right _ hb)⟩

namespace Quoted

/-- A quote closes itself. -/
theorem close?_self (q : CodePoint) (cs : Text) : close? q (q :: cs) = some 1 := by
  rw [close?.eq_def]
  exact if_pos rfl

/-- A code point behind a backslash does not close. -/
theorem close?_backslash {q : CodePoint} (hq : q ≠ '\\') (d : CodePoint) (ds : Text) :
    close? q (CodePoint.ofChar '\\' :: d :: ds) = (close? q ds).map (· + 2) := by
  rw [close?.eq_def]
  dsimp only
  rw [if_neg (Ne.symm hq), if_pos rfl]

/-- What is no quote and no backslash does not close. -/
theorem close?_cons {q c : CodePoint} (hc : c ≠ q) (hb : c ≠ '\\') (cs : Text) :
    close? q (c :: cs) = (close? q cs).map (· + 1) := by
  rw [close?.eq_def]
  dsimp only
  rw [if_neg hc, if_neg hb]

end Quoted

namespace Lexeme

/-- What a piece looks like: a quotation, a mark, or a run that no search
takes notice of. -/
inductive Shape : Lexeme → Prop where
  | quoted {kind : LexemeKind} {q : CodePoint} {body : Text} (hkind : ∀ m, kind ≠ .mark m)
      (hq : q ∈ codeQuotes) (hclose : Quoted.close? q body = some body.length) :
      Shape ⟨kind, q :: body⟩
  | mark (m : Mark) : Shape ⟨.mark m, [CodePoint.ofChar m.char]⟩
  | plain {kind : LexemeKind} {raw : Text} (hkind : ∀ m, kind ≠ .mark m)
      (hraw : ∀ c ∈ raw, Neutral c) : Shape ⟨kind, raw⟩

/-- A closing quote is found again when all behind it is cut off. -/
theorem close?_take {q : CodePoint} (hq : q ≠ '\\') {cs : Text} {n : Nat}
    (h : Quoted.close? q cs = some n) :
    Quoted.close? q (cs.take n) = some (cs.take n).length := by
  fun_induction Quoted.close? q cs generalizing n with
  | case1 => cases h
  | case2 cs =>
      cases h
      exact Quoted.close?_self q _
  | case3 hc => cases h
  | case4 d ds hc ih =>
      obtain ⟨k, hk, rfl⟩ := Option.map_eq_some_iff.1 h
      rw [List.take_succ_cons, List.take_succ_cons, Quoted.close?_backslash hq, ih hk]
      rfl
  | case5 c cs hc hb ih =>
      obtain ⟨k, hk, rfl⟩ := Option.map_eq_some_iff.1 h
      rw [List.take_succ_cons, Quoted.close?_cons hc hb, ih hk]
      rfl

/-- The code points of numbers. -/
def isNumberChar (c : CodePoint) : Bool :=
  c.isDigit || c = '.' || c = 'e' || c = 'E' || c = '+' || c = '-'

/-- A digit may stand in a numeral. -/
theorem mem_take_digitRun {t : Text} {c : CodePoint} (h : c ∈ t.take (digitRun t)) :
    isNumberChar c = true := by
  unfold digitRun at h
  have hrun : t.take (t.takeWhile CodePoint.isDigit).length = t.takeWhile CodePoint.isDigit :=
    (List.prefix_iff_eq_take.1 (List.takeWhile_prefix _)).symm
  rw [hrun] at h
  have hdigit : c.isDigit = true := List.mem_takeWhile_imp h
  simp [isNumberChar, hdigit]

/-- An exponent may stand in a numeral. -/
theorem mem_take_exponentLength {t : Text} {c : CodePoint} (h : c ∈ t.take (exponentLength t)) :
    isNumberChar c = true := by
  unfold exponentLength at h
  split at h
  · next x cs =>
      split at h
      · next hx =>
          have hmark : isNumberChar x = true := by
            rcases hx with rfl | rfl <;> decide
          split at h
          · next s ds =>
              split at h
              · next hs =>
                  have hsign : isNumberChar s = true := by
                    rcases hs with rfl | rfl <;> decide
                  split at h
                  · cases h
                  · rw [List.take_succ_cons, List.take_succ_cons, List.mem_cons, List.mem_cons] at h
                    rcases h with rfl | rfl | h
                    · exact hmark
                    · exact hsign
                    · exact mem_take_digitRun h
              · split at h
                · cases h
                · rw [List.take_succ_cons, List.mem_cons] at h
                  rcases h with rfl | h
                  · exact hmark
                  · exact mem_take_digitRun h
          · cases h
      · cases h
  · cases h

/-- A mantissa may stand in a numeral. -/
theorem mem_take_mantissaLength {t : Text} {c : CodePoint} (h : c ∈ t.take (mantissaLength t)) :
    isNumberChar c = true := by
  unfold mantissaLength at h
  dsimp only at h
  split at h
  · next x cs hdrop =>
      split at h
      · next hx =>
          split at h
          · cases h
          · rw [Nat.add_assoc, List.take_add, hdrop, Nat.add_comm 1, List.take_succ_cons,
              List.mem_append, List.mem_cons] at h
            rcases h with h | rfl | h
            · exact mem_take_digitRun h
            · rw [hx]
              decide
            · exact mem_take_digitRun h
      · exact mem_take_digitRun h
  · exact mem_take_digitRun h

/-- A number consists of digits, points, signs and exponent marks. -/
theorem mem_take_numberLength {t : Text} {c : CodePoint} (h : c ∈ t.take (numberLength t)) :
    isNumberChar c = true := by
  unfold numberLength at h
  split at h
  · cases h
  · rw [List.take_add, List.mem_append] at h
    rcases h with h | h
    · exact mem_take_mantissaLength h
    · exact mem_take_exponentLength h

/-- A run of a class without quotes and brackets. -/
theorem neutral_of_mem_run {p : CodePoint → Bool}
    (h : ∀ c ∈ codeQuotes ++ codeBrackets, p c = false) {t : Text} {c : CodePoint}
    (hc : c ∈ t.take (t.takeWhile p).length) : Neutral c := by
  rw [← List.prefix_iff_eq_take.1 (List.takeWhile_prefix p)] at hc
  exact neutral_of_class h (List.mem_takeWhile_imp hc)

/-- A quotation has a shape when it closes. -/
theorem shape_quoted {kind : LexemeKind} (hkind : ∀ m, kind ≠ .mark m) {q : CodePoint} {cs : Text}
    {n : Nat} (hq : q ∈ codeQuotes) (h : Quoted.close? q cs = some n) :
    Shape ⟨kind, q :: cs.take n⟩ := by
  have hb : q ≠ '\\' := by
    rintro rfl
    revert hq
    decide
  exact .quoted hkind hq (close?_take hb h)

/-- A numeral has the shape of a number. -/
theorem shape_number {c : CodePoint} {cs : Text} (h : numberLength (c :: cs) ≠ 0) :
    Shape ⟨.number, c :: cs.take (numberLength (c :: cs) - 1)⟩ := by
  refine .plain (by simp) fun d hd => ?_
  have hlength : numberLength (c :: cs) = (numberLength (c :: cs) - 1) + 1 := by omega
  refine neutral_of_class (p := isNumberChar) (by decide)
    (mem_take_numberLength (t := c :: cs) ?_)
  rw [hlength, List.take_succ_cons]
  exact hd

/-- An operator has the shape of one. -/
theorem shape_operator {c : CodePoint} {cs : Text} {op : Operator}
    (h : operator? (c :: cs) = some op) :
    Shape ⟨.operator op, c :: cs.take (op.spelling.length - 1)⟩ := by
  have hneutral : op.spelling ≠ [] ∧ ∀ d ∈ op.spelling, Neutral d := by
    cases op with
    | binary op => cases op <;> decide
    | _ => decide
  have hspelled : op.spelling <+: c :: cs := by
    have hfound := List.find?_some h
    simp only [Bool.and_eq_true] at hfound
    exact List.isPrefixOf_iff_prefix.1 hfound.1
  refine .plain (by simp) fun d hd => hneutral.2 d ?_
  cases hw : op.spelling with
  | nil => exact absurd hw hneutral.1
  | cons x w =>
      rw [hw] at hspelled hd
      obtain ⟨rfl, hrest⟩ := List.cons_prefix_cons.1 hspelled
      rw [List.prefix_iff_eq_take.1 hrest]
      exact hd

/-- A mark has the shape of one. -/
theorem shape_mark {c : CodePoint} {m : Mark} (h : Mark.ofCodePoint? c = some m) :
    Shape ⟨.mark m, [c]⟩ := by
  have hc : c = m.char := by simpa using List.find?_some h
  rw [hc]
  exact .mark m

/-- The piece at the start of a text has a shape, unless it is stray. -/
theorem shape_extent {c : CodePoint} {cs : Text} (h : (extent c cs).1 ≠ .stray) :
    Shape ⟨(extent c cs).1, c :: cs.take (extent c cs).2⟩ := by
  unfold extent at h ⊢
  by_cases hblank : c.isBlank = true
  · rw [if_pos hblank]
    have hclass : ∀ c ∈ codeQuotes ++ codeBrackets, c.isBlank = false := by decide
    refine .plain (by simp) fun d hd => ?_
    rcases List.mem_cons.1 hd with rfl | hd
    · exact neutral_of_class hclass hblank
    · exact neutral_of_mem_run hclass hd
  rw [if_neg hblank] at h ⊢
  by_cases hquote : c = '\'' ∨ c = '"'
  · rw [if_pos hquote] at h ⊢
    cases hclose : Quoted.close? c cs with
    | none => rw [hclose] at h; exact absurd rfl h
    | some n =>
        refine shape_quoted (by simp) ?_ hclose
        rcases hquote with rfl | rfl <;> decide
  rw [if_neg hquote] at h ⊢
  by_cases hback : c = '`'
  · rw [if_pos hback] at h ⊢
    cases hclose : Quoted.close? c cs with
    | none => rw [hclose] at h; exact absurd rfl h
    | some n => exact shape_quoted (by simp) (by rw [hback]; decide) hclose
  rw [if_neg hback] at h ⊢
  by_cases hnumber : numberLength (c :: cs) ≠ 0
  · rw [if_pos hnumber]
    exact shape_number hnumber
  rw [if_neg hnumber] at h ⊢
  by_cases hword : startsWord c = true
  · rw [if_pos hword]
    refine .plain (by simp) fun d hd => ?_
    rcases List.mem_cons.1 hd with rfl | hd
    · exact neutral_of_class (p := startsWord) (by decide) hword
    · exact neutral_of_mem_run (p := continuesWord) (by decide) hd
  rw [if_neg hword] at h ⊢
  cases hop : operator? (c :: cs) with
  | some op => exact shape_operator hop
  | none =>
      rw [hop] at h
      cases hmark : Mark.ofCodePoint? c with
      | some m => exact shape_mark hmark
      | none => rw [hmark] at h; exact absurd rfl h

/-- Every piece of a text has a shape, unless it is stray. -/
theorem shape_of_mem_split {t : Text} {l : Lexeme} (h : l ∈ split t) (hstray : l.kind ≠ .stray) :
    Shape l := by
  fun_induction split t with
  | case1 => cases h
  | case2 c cs ih =>
      rcases List.mem_cons.1 h with rfl | h
      · exact shape_extent hstray
      · exact ih h

/-- The tokens of pieces, opened at the first piece. -/
theorem tokens_cons_eq_ok {p : Nat} {l : Lexeme} {ls : List Lexeme} {ts : List (Token Text)}
    (h : tokens p (l :: ls) = .ok ts) :
    ∃ first rest, l.token? p = .ok first ∧ tokens (p + l.raw.length) ls = .ok rest
      ∧ ts = first.toList ++ rest := by
  rw [tokens] at h
  cases hfirst : l.token? p with
  | error e => rw [hfirst] at h; cases h
  | ok first =>
      cases hrest : tokens (p + l.raw.length) ls with
      | error e => rw [hfirst, hrest] at h; cases h
      | ok rest =>
          rw [hfirst, hrest] at h
          cases h
          exact ⟨first, rest, rfl, rfl, rfl⟩

/-- The pieces of a text that has tokens are not stray. -/
theorem shape_of_tokenize {p : Nat} {t : Text} {ts : List (Token Text)}
    (h : tokenize p t = .ok ts) : ∀ l ∈ split t, Shape l := by
  have hproper : ∀ (ls : List Lexeme) (p : Nat) (ts : List (Token Text)), (∀ l ∈ ls, l.raw ≠ []) →
      tokens p ls = .ok ts → ∀ l ∈ ls, l.kind ≠ .stray := by
    intro ls
    induction ls with
    | nil => intro p ts _ _ l hl; cases hl
    | cons l ls ih =>
        intro p ts hraw hts l' hl'
        obtain ⟨first, rest, hfirst, hrest, -⟩ := tokens_cons_eq_ok hts
        rcases List.mem_cons.1 hl' with rfl | hl'
        · exact ((token?_eq_ok (hraw l' List.mem_cons_self) p).1 ⟨first, hfirst⟩).1
        · exact ih _ _ (fun x hx => hraw x (List.mem_cons_of_mem l hx)) hrest l' hl'
  intro l hl
  exact shape_of_mem_split hl
    (hproper (split t) p ts (fun x hx => raw_ne_nil_of_mem_split hx) h l hl)

end Lexeme

-- =========================================================== searches

namespace Quoted

variable {σ : Type} {quotes : Text} {step : σ → Text → Verdict σ}

/-- A search inside a quotation goes on behind its closing quote. -/
theorem find_of_close? {q : CodePoint} (hq : q ≠ '\\') {cs : Text} {n : Nat}
    (h : close? q cs = some n) (s : σ) (r : Text) :
    find quotes step s (some q) (cs ++ r)
      = (find quotes step s none (cs.drop n ++ r)).map (· + n) := by
  fun_induction close? q cs generalizing n with
  | case1 => cases h
  | case2 cs =>
      cases h
      rw [List.cons_append, find.eq_def]
      dsimp only
      rw [if_neg hq, if_pos rfl]
      rfl
  | case3 hc => cases h
  | case4 d ds hc ih =>
      obtain ⟨k, hk, rfl⟩ := Option.map_eq_some_iff.1 h
      rw [List.cons_append, List.cons_append, find.eq_def]
      dsimp only
      rw [if_pos rfl, ih hk, Option.map_map]
      rfl
  | case5 c cs hc hb ih =>
      obtain ⟨k, hk, rfl⟩ := Option.map_eq_some_iff.1 h
      rw [List.cons_append, find.eq_def]
      dsimp only
      rw [if_neg hb, if_neg hc, ih hk, Option.map_map]
      rfl

/-- A search outside of quotations goes on where its step says so. -/
theorem find_of_go {c : CodePoint} (hc : c ∉ quotes) {s s' : σ} {r : Text}
    (h : step s (c :: r) = .go s') :
    find quotes step s none (c :: r) = (find quotes step s' none r).map (· + 1) := by
  rw [find.eq_def]
  dsimp only
  rw [if_neg hc, h]

/-- How a search that decides on brackets alone goes over pieces, when `r`
stands behind them. -/
inductive Passes (step : σ → Text → Verdict σ) (r : Text) : σ → List Lexeme → σ → Prop where
  | nil (s : σ) : Passes step r s [] s
  | mark {s s' s'' : σ} {m : Mark} {ls : List Lexeme}
      (h : step s (CodePoint.ofChar m.char :: (ls.flatMap Lexeme.raw ++ r)) = .go s')
      (hrest : Passes step r s' ls s'') :
      Passes step r s (⟨.mark m, [CodePoint.ofChar m.char]⟩ :: ls) s''
  | other {s s' : σ} {l : Lexeme} {ls : List Lexeme} (hkind : ∀ m, l.kind ≠ .mark m)
      (hrest : Passes step r s ls s') : Passes step r s (l :: ls) s'

/-- A run that no search takes notice of is walked over. -/
theorem find_of_neutral (hquotes : quotes ⊆ codeQuotes)
    (hstep : ∀ s c t, Neutral c → step s (c :: t) = .go s) {w : Text}
    (hw : ∀ c ∈ w, Neutral c) (s : σ) (r : Text) :
    find quotes step s none (w ++ r)
      = (find quotes step s none r).map (· + w.length) := by
  induction w with
  | nil => simp
  | cons c w ih =>
      have hc := hw c List.mem_cons_self
      rw [List.cons_append, find_of_go (fun hq => hc.1 (hquotes hq)) (hstep s c _ hc),
        ih fun d hd => hw d (List.mem_cons_of_mem c hd), Option.map_map]
      rfl

/-- A search comes out of the pieces of a text behind them, when it knows
the quotes that open quotations there. -/
theorem find_of_passes (hquotes : quotes ⊆ codeQuotes)
    (hstep : ∀ s c t, Neutral c → step s (c :: t) = .go s)
    {ls : List Lexeme} (hshape : ∀ l ∈ ls, l.Shape)
    (hknown : ∀ l ∈ ls, ∀ c ∈ l.raw, c ∈ codeQuotes → c ∈ quotes) {r : Text} {s s' : σ}
    (h : Passes step r s ls s') :
    find quotes step s none (ls.flatMap Lexeme.raw ++ r)
      = (find quotes step s' none r).map (· + (ls.flatMap Lexeme.raw).length) := by
  induction h with
  | nil s => simp
  | @mark s s' s'' m ls hgo _ ih =>
      have hm : CodePoint.ofChar m.char ∉ quotes := by
        intro hmem
        have hcode := hquotes hmem
        revert hcode
        cases m <;> decide
      rw [List.flatMap_cons, List.append_assoc, List.singleton_append, find_of_go hm hgo,
        ih (fun l hl => hshape l (List.mem_cons_of_mem _ hl))
          fun l hl => hknown l (List.mem_cons_of_mem _ hl), Option.map_map, List.length_append,
        List.length_singleton, Nat.add_comm 1]
      rfl
  | @other s s' l ls hkind _ ih =>
      have ih := ih (fun l' hl' => hshape l' (List.mem_cons_of_mem _ hl'))
        fun l' hl' => hknown l' (List.mem_cons_of_mem _ hl')
      rw [List.flatMap_cons, List.append_assoc, List.length_append]
      cases hshape l List.mem_cons_self with
      | mark m => exact absurd rfl (hkind m)
      | plain _ hraw =>
          rw [find_of_neutral hquotes hstep hraw, ih, Option.map_map]
          congr 1
          funext n
          exact (Nat.add_assoc ..).trans (congrArg _ (Nat.add_comm ..))
      -- a literal is passed from its quote to the one that closes it
      | @quoted kind q body _ hq hclose =>
          have hb : q ≠ '\\' := by
            rintro rfl
            revert hq
            decide
          have hopen : find quotes step s none (q :: (body ++ (ls.flatMap Lexeme.raw ++ r)))
              = (find quotes step s (some q)
                (body ++ (ls.flatMap Lexeme.raw ++ r))).map (· + 1) := by
            rw [find.eq_def]
            dsimp only
            rw [if_pos (hknown _ List.mem_cons_self q List.mem_cons_self hq)]
          rw [List.cons_append, hopen, find_of_close? hb hclose, List.drop_length, List.nil_append,
            ih, Option.map_map, Option.map_map, List.length_cons]
          congr 1
          funext n
          simp only [Function.comp]
          omega

end Quoted

end KeyHarvest
