/-
Which expressions hold an integer that is too long. Such an integer is no
fault of the expression, so it passes every reader untouched and stops
whoever asked for the expression. `Overlong` says for which texts that
happens, without reading them to the end:

- a numeral of too many digits is met before anything that begins no
  token, or
- all tokens are fine, and where the grammar asks for an operand it meets
  a backtick literal with such a text in a substitution, the substitutions
  before it being fine.

`parseAt_eq_oversized` is the equivalence.

# What the grammar asks for

A backtick literal is read when it is reached, and it is reached where an
operand is due. That is the case when the tokens before it, taken by
themselves, are refused because they end too early (`Asks`). The proof
compares a token list with the part of it before the literal: the two are
read alike until the part ends (`cutSimulation`).
-/
import KeyHarvest.Expr.Interpolation
import KeyHarvest.Proofs.Expr.Simulation
import KeyHarvest.Proofs.Refusal
import Mathlib.Data.List.TakeWhile

namespace KeyHarvest

namespace Grammar

variable {stop : Nat} {ts us : List Item}

-- =========================================================== literals

/-- What a token brings along to be refused with: the refusal of a
backtick literal. -/
def refusalOf? (t : Item) : Option ExprError :=
  match t.kind with
  | .template b => refusal? b.outcome
  | _ => none

/-- Every backtick literal can be read. -/
def Readable (ts : List Item) : Prop := ∀ t ∈ ts, refusalOf? t = none

/-- The tokens are the beginning of an expression and end where an operand
is due. -/
def Asks (stop : Nat) (ts : List Item) : Prop :=
  Readable ts ∧ pipe stop ts = .error (.malformed .unexpectedEnd stop)

/-- A list, and its part before a literal. -/
def CutBefore (literal : Item) (after : List Item) (ts us : List Item) : Prop :=
  ts = us ++ literal :: after ∧ Readable us

/-- How the two are refused: the list with the refusal of the literal
where the part ends too early, and for a fault of its own where the part
has one. -/
def CutError (stop : Nat) (refusal : ExprError) (e f : ExprError) : Prop :=
  (e = refusal ∧ f = .malformed .unexpectedEnd stop)
    ∨ ((∃ fault p, e = .malformed fault p)
      ∧ ∃ fault q, fault ≠ .unexpectedEnd ∧ f = .malformed fault q)

/-- An item with a refusal is a template whose body is refused. -/
theorem exists_of_refusalOf? {t : Item} {e : ExprError} (h : refusalOf? t = some e) :
    ∃ b p, t = ⟨.template b, p⟩ ∧ b.outcome = .error e := by
  obtain ⟨k, p⟩ := t
  cases k with
  | template b => exact ⟨b, p, rfl, refusal?_eq_some.1 h⟩
  | _ => cases h

/-- A token that brings no refusal is of the same kind as itself. -/
theorem kin_self {E : ExprError → ExprError → Prop} {t : Item} (h : refusalOf? t = none) :
    Kin E t.kind t.kind := by
  obtain ⟨k, p⟩ := t
  cases k with
  | keyword word => exact .same (.keyword word)
  | name n => exact .same (.name n)
  | text value => exact .same (.text value)
  | number value => exact .same (.number value)
  | operator op => exact .same (.operator op)
  | mark m => exact .same (.mark m)
  | template b =>
      obtain ⟨body, outcome⟩ := b
      obtain ⟨e, rfl⟩ := refusal?_eq_none.1 h
      exact .literal (Alike.ok rfl)

/-- A list and its part before an unreadable literal are read alike. -/
theorem cutSimulation (stop : Nat) {b : Backtick} {refusal : ExprError}
    (hb : b.outcome = .error refusal) (p : Nat) (after : List Item) :
    Simulation stop stop (CutError stop refusal) (CutBefore ⟨.template b, p⟩ after) where
  front := by
    intro ts us h
    obtain ⟨rfl, hr⟩ := h
    cases us with
    | nil =>
        refine .ended rfl rfl ?_ ?_ (.inl ⟨rfl, rfl⟩)
        · show primary stop (⟨.template b, p⟩ :: after) = _
          rw [primary]
          simp only [hb]
          rfl
        · rw [primary]
          rfl
    | cons u us =>
        refine .step (kin_self (hr u (by simp))) ⟨rfl, ?_⟩
        intro t ht
        exact hr t (List.mem_cons_of_mem u ht)
  fault := by
    intro ts us fault _ hf
    exact .inr ⟨⟨fault, _, rfl⟩, fault, _, hf.ne_end, rfl⟩

/-- Tokens with readable literals only are never refused for a numeral. -/
theorem malformed_of_readable {e : ExprError} (hr : Readable ts) (h : pipe stop ts = .error e) :
    ∃ fault p, e = .malformed fault p := by
  -- compare them with the same tokens and a literal that cannot be read
  let b : Backtick := ⟨[], .error (.oversized 0)⟩
  have hb : b.outcome = .error (.oversized 0) := rfl
  have hcut : CutBefore ⟨.template b, 0⟩ [] (ts ++ [⟨.template b, 0⟩]) ts := ⟨rfl, hr⟩
  have halike := alike_read (cutSimulation stop hb 0 []) .pipe hcut
  simp only [read, h] at halike
  cases hx : pipe stop (ts ++ [⟨.template b, 0⟩]) with
  | ok x => rw [hx] at halike; exact halike.elim
  | error f =>
      rw [hx] at halike
      rcases halike with ⟨-, rfl⟩ | ⟨-, fault, q, -, rfl⟩
      · exact ⟨_, _, rfl⟩
      · exact ⟨_, _, rfl⟩

/-- The first literal that cannot be read brings a numeral into a refusal
exactly where it is asked for. -/
theorem pipe_cut {b : Backtick} {refusal : ExprError} (hb : b.outcome = .error refusal) {p n : Nat}
    {after : List Item} (hr : Readable us) :
    pipe stop (us ++ ⟨.template b, p⟩ :: after) = .error (.oversized n)
      ↔ pipe stop us = .error (.malformed .unexpectedEnd stop) ∧ refusal = .oversized n := by
  have hcut : CutBefore ⟨.template b, p⟩ after (us ++ ⟨.template b, p⟩ :: after) us := ⟨rfl, hr⟩
  have halike := alike_read (cutSimulation stop hb p after) .pipe hcut
  simp only [read] at halike
  cases hx : pipe stop (us ++ ⟨.template b, p⟩ :: after) with
  | ok x =>
      cases hy : pipe stop us with
      | ok y => simp
      | error f => rw [hx, hy] at halike; exact halike.elim
  | error e =>
      cases hy : pipe stop us with
      | ok y => rw [hx, hy] at halike; exact halike.elim
      | error f =>
          rw [hx, hy] at halike
          rcases halike with ⟨rfl, rfl⟩ | ⟨⟨fault, p, rfl⟩, fault', q, hf, rfl⟩
          · simp
          · simp [hf]

/-- A whole text is too long where its pipe is. -/
theorem whole_eq_oversized_iff {n : Nat} :
    whole stop ts = .error (.oversized n) ↔ ts ≠ [] ∧ pipe stop ts = .error (.oversized n) := by
  cases ts with
  | nil => simp [whole, pure, Except.pure]
  | cons t r =>
      rw [whole]
      cases hp : pipe stop (t :: r) with
      | error e => simp [bind, Except.bind]
      | ok x =>
          obtain ⟨e, s, hs⟩ := x
          cases s <;> simp [bind, Except.bind, pure, Except.pure, fail]

/-- A whole token list is refused for a numeral exactly when an operand is
asked for where a backtick literal has one. -/
theorem whole_eq_oversized {n : Nat} :
    whole stop ts = .error (.oversized n)
      ↔ ∃ before b p after, ts = before ++ ⟨.template b, p⟩ :: after ∧ Asks stop before
        ∧ b.outcome = .error (.oversized n) := by
  rw [whole_eq_oversized_iff]
  constructor
  · intro h
    obtain ⟨-, h⟩ := h
    cases hf : ts.findSome? refusalOf? with
    | none =>
        obtain ⟨fault, p, he⟩ := malformed_of_readable (List.findSome?_eq_none_iff.1 hf) h
        cases he
    | some e =>
        obtain ⟨before, t, after, rfl, ht, hr⟩ := List.findSome?_eq_some_iff.1 hf
        obtain ⟨b, p, rfl, hb⟩ := exists_of_refusalOf? ht
        obtain ⟨hasks, rfl⟩ := (pipe_cut hb hr).1 h
        exact ⟨before, b, p, after, rfl, ⟨hr, hasks⟩, hb⟩
  · intro h
    obtain ⟨before, b, p, after, rfl, ⟨hr, hasks⟩, hb⟩ := h
    exact ⟨by simp, (pipe_cut hb hr).2 ⟨hasks, rfl⟩⟩

end Grammar

-- ============================================================= pieces

namespace Lexeme

/-- A numeral of digits alone, and of more than an integer may have. -/
def IsOversized (l : Lexeme) : Prop :=
  l.kind = .number ∧ (∀ c ∈ l.raw, c.isDigit = true) ∧ maxIntegerDigits < l.raw.length

/-- A piece that has a token, or is blank. -/
def IsProper (l : Lexeme) : Prop := l.kind ≠ .stray ∧ ¬ l.IsOversized

/-- Nothing follows the digits of a numeral exactly when it is digits
alone. -/
theorem isEmpty_drop_digits (raw : Text) :
    (raw.drop (raw.takeWhile CodePoint.isDigit).length).isEmpty = true
      ↔ ∀ c ∈ raw, c.isDigit = true := by
  have hdrop : raw.drop (raw.takeWhile CodePoint.isDigit).length
      = raw.dropWhile CodePoint.isDigit := by
    calc raw.drop (raw.takeWhile CodePoint.isDigit).length
        = (raw.takeWhile CodePoint.isDigit ++ raw.dropWhile CodePoint.isDigit).drop
            (raw.takeWhile CodePoint.isDigit).length := by rw [List.takeWhile_append_dropWhile]
      _ = raw.dropWhile CodePoint.isDigit := List.drop_left
  rw [hdrop, List.isEmpty_iff, List.dropWhile_eq_nil_iff]

/-- A numeral is refused for its length, when it is digits alone and too
many of them. -/
theorem refusal?_numeral (raw : Text) :
    refusal? (numeral raw)
      = if (∀ c ∈ raw, c.isDigit = true) ∧ maxIntegerDigits < raw.length
        then some (.oversized raw.length) else none := by
  unfold numeral
  by_cases hd : ∀ c ∈ raw, c.isDigit = true
  · have hw : raw.takeWhile CodePoint.isDigit = raw := List.takeWhile_eq_self_iff.2 hd
    have hrest := (isEmpty_drop_digits raw).2 hd
    simp only [hw] at hrest ⊢
    rw [if_pos hrest]
    by_cases hlen : raw.length ≤ maxIntegerDigits
    · rw [if_pos hlen, if_neg fun h => absurd h.2 (Nat.not_lt.2 hlen)]
      rfl
    · rw [if_neg hlen, if_pos ⟨hd, Nat.not_le.1 hlen⟩]
      rfl
  · have hlong : ¬ ((∀ c ∈ raw, c.isDigit = true) ∧ maxIntegerDigits < raw.length) :=
      fun h => hd h.1
    have hrest := mt (isEmpty_drop_digits raw).1 hd
    simp only [hrest]
    rw [if_neg hlong]
    rfl

/-- A piece stops its reader when it is a numeral that is too long. -/
theorem token?_eq_oversized (l : Lexeme) (position : Nat) :
    (∃ n, l.token? position = .error (.oversized n)) ↔ l.IsOversized := by
  obtain ⟨kind, raw⟩ := l
  cases kind with
  | number =>
      have hn := refusal?_numeral raw
      by_cases h : (∀ c ∈ raw, c.isDigit = true) ∧ maxIntegerDigits < raw.length
      · rw [if_pos h] at hn
        refine ⟨fun _ => ⟨rfl, h⟩, fun _ => ⟨raw.length, ?_⟩⟩
        simp only [token?, refusal?_eq_some.1 hn]
        rfl
      · rw [if_neg h] at hn
        obtain ⟨v, hv⟩ := refusal?_eq_none.1 hn
        simp [token?, IsOversized, hv, Except.map, h]
  | word =>
      simp only [token?, IsOversized]
      split <;> simp
  | stray =>
      simp only [token?, IsOversized]
      split
      · split <;> simp
      · simp
  | _ => simp [token?, IsOversized]

/-- A piece has a token, or is blank, when it is proper. -/
theorem token?_eq_ok {l : Lexeme} (hraw : l.raw ≠ []) (position : Nat) :
    (∃ o, l.token? position = .ok o) ↔ l.IsProper := by
  obtain ⟨kind, raw⟩ := l
  cases kind with
  | number =>
      have hn := refusal?_numeral raw
      by_cases h : (∀ c ∈ raw, c.isDigit = true) ∧ maxIntegerDigits < raw.length
      · rw [if_pos h] at hn
        refine ⟨fun ⟨o, ho⟩ => ?_, fun hl => absurd ⟨rfl, h⟩ hl.2⟩
        simp only [token?, refusal?_eq_some.1 hn] at ho
        cases ho
      · rw [if_neg h] at hn
        obtain ⟨v, hv⟩ := refusal?_eq_none.1 hn
        refine ⟨fun _ => ⟨by simp, fun hl => h hl.2⟩, fun _ => ⟨some ⟨.number v, position⟩, ?_⟩⟩
        simp only [token?, hv]
        rfl
  | word =>
      simp only [token?, IsProper, IsOversized]
      split <;> simp
  | stray =>
      cases raw with
      | nil => exact absurd rfl hraw
      | cons c cs =>
          simp only [token?, IsProper]
          split <;> simp
  | _ => simp [token?, IsProper, IsOversized]

/-- Pieces stop their reader when a numeral that is too long comes before
anything else that has no token. -/
theorem tokens_eq_oversized {ls : List Lexeme} (hraw : ∀ l ∈ ls, l.raw ≠ []) (position : Nat) :
    (∃ n, tokens position ls = .error (.oversized n)) ↔ Reaches IsProper IsOversized ls := by
  induction ls generalizing position with
  | nil => simp [tokens]
  | cons l ls ih =>
      have hl : l.raw ≠ [] := hraw l (by simp)
      have ih := ih fun l' h' => hraw l' (by simp [h'])
      rw [reaches_cons, tokens]
      cases ht : l.token? position with
      | error e =>
          have hproper : ¬ l.IsProper := by
            rw [← token?_eq_ok hl position, ht]
            simp
          rw [← token?_eq_oversized l position, ht]
          simp [hproper, bind, Except.bind]
      | ok first =>
          have hproper : l.IsProper := (token?_eq_ok hl position).1 ⟨first, ht⟩
          rw [← ih (position + l.raw.length)]
          cases hr : tokens (position + l.raw.length) ls with
          | error e => simp [hproper, hproper.2, bind, Except.bind]
          | ok rest => simp [hproper.2, bind, Except.bind, pure, Except.pure]

end Lexeme

-- ============================================================== texts

namespace Expr

/-- A text that starts at a position and holds a numeral that stops its
reader. -/
inductive Overlong : Nat → Text → Prop where
  | numeral {start : Nat} {t : Text}
      (h : Reaches Lexeme.IsProper Lexeme.IsOversized (Lexeme.split t)) : Overlong start t
  | literal {start p : Nat} {t body : Text} {before after : List (Token Text)}
      {parts more : List Substitution} {part : Substitution}
      (ht : tokenize start t = .ok (before ++ ⟨.template body, p⟩ :: after))
      (hasks : Grammar.Asks (start + t.length) (before.map toItem))
      (hparts : (BacktickBody.split 0 body).parts = parts ++ part :: more)
      (hread : ∀ q ∈ parts, ∃ e, parseAt (p + 1 + q.offset) q.code = .ok e)
      (h : Overlong (p + 1 + part.offset) part.code) : Overlong start t

/-- A backtick body stops its reader at a substitution that does, past
substitutions that can be read. -/
theorem readBody_eq_oversized {start n : Nat} {raw : Text} :
    readBody start raw = .error (.oversized n)
      ↔ Reaches (fun q => ∃ e, parseAt (start + q.offset) q.code = .ok e)
          (fun q => parseAt (start + q.offset) q.code = .error (.oversized n))
          (BacktickBody.split 0 raw).parts := by
  have hparts : (BacktickBody.split 0 raw).parts.mapM
        (fun part => parseAt (start + part.offset) part.code) = .error (.oversized n)
      ↔ Reaches (fun q => ∃ e, parseAt (start + q.offset) q.code = .ok e)
          (fun q => parseAt (start + q.offset) q.code = .error (.oversized n))
          (BacktickBody.split 0 raw).parts := by
    rw [← refusal?_eq_some, refusal?_mapM, findSome?_eq_some_iff_reaches]
    exact reaches_congr (fun q _ => refusal?_eq_none) fun q _ => refusal?_eq_some
  rw [← hparts, readBody]
  cases (BacktickBody.split 0 raw).parts.mapM
      (fun part => parseAt (start + part.offset) part.code) with
  | error e => simp [bind, Except.bind]
  | ok items =>
      simp only [bind, Except.bind, ofBody]
      split <;> simp

/-- An item that is a template comes from a token that is one. -/
theorem toItem_eq_template {token : Token Text} {b : Backtick} {p : Nat}
    (h : toItem token = ⟨.template b, p⟩) :
    ∃ body, token = ⟨.template body, p⟩ ∧ b = toBacktick p body := by
  obtain ⟨kind, q⟩ := token
  cases kind with
  | template body =>
      cases h
      exact ⟨body, rfl, rfl⟩
  | _ => cases h

/-- The numeral of a text that stops its reader. -/
theorem overlong_of_parseAt {start n : Nat} {t : Text}
    (h : parseAt start t = .error (.oversized n)) : Overlong start t := by
  induction hk : t.length using Nat.strongRecOn generalizing start t with
  | _ k rec =>
      subst hk
      rw [parseAt_eq] at h
      cases ht : tokenize start t with
      | error e =>
          rw [ht] at h
          cases h
          have hraw : ∀ l ∈ Lexeme.split t, l.raw ≠ [] := fun l hl =>
            Lexeme.raw_ne_nil_of_mem_split hl
          exact .numeral ((Lexeme.tokens_eq_oversized hraw start).1 ⟨n, ht⟩)
      | ok ts =>
          rw [ht] at h
          obtain ⟨_, b, p, _, hts, hasks, hb⟩ := Grammar.whole_eq_oversized.1 h
          obtain ⟨before, rest, rfl, rfl, hrest⟩ := List.map_eq_append_iff.1 hts
          obtain ⟨token, after, rfl, htoken, rfl⟩ := List.map_eq_cons_iff.1 hrest
          obtain ⟨body, rfl, rfl⟩ := toItem_eq_template htoken
          obtain ⟨parts, part, more, hparts, hread, hpart⟩ := readBody_eq_oversized.1 hb
          have hmem : (⟨.template body, p⟩ : Token Text)
              ∈ before ++ ⟨.template body, p⟩ :: after := by simp
          have hbody : body.length < t.length := template_length_lt ht hmem
          have hpart' : part ∈ (BacktickBody.split 0 body).parts := by rw [hparts]; simp
          have hcode : part.code.length < body.length := BacktickBody.code_length_lt hpart'
          exact .literal ht hasks hparts hread (rec _ (by omega) hpart rfl)

/-- Such a text stops its reader. -/
theorem parseAt_of_overlong {start : Nat} {t : Text} (h : Overlong start t) :
    ∃ n, parseAt start t = .error (.oversized n) := by
  induction h with
  | @numeral start t h =>
      have hraw : ∀ l ∈ Lexeme.split t, l.raw ≠ [] := fun l hl =>
        Lexeme.raw_ne_nil_of_mem_split hl
      obtain ⟨n, hn⟩ := (Lexeme.tokens_eq_oversized hraw start).2 h
      refine ⟨n, ?_⟩
      rw [parseAt_eq, tokenize, hn]
      rfl
  | @literal start p t body before after parts more part ht hasks hparts hread _ ih =>
      obtain ⟨n, hn⟩ := ih
      refine ⟨n, ?_⟩
      rw [parseAt_eq, ht]
      show Grammar.whole _ _ = _
      rw [Grammar.whole_eq_oversized]
      refine ⟨before.map toItem, toBacktick p body, p, after.map toItem, ?_, hasks, ?_⟩
      · rw [List.map_append, List.map_cons]
        rfl
      · exact readBody_eq_oversized.2 ⟨parts, part, more, hparts, hread, hn⟩

/-- A text is refused for a numeral exactly when it holds one that stops
its reader. -/
theorem parseAt_eq_oversized {start : Nat} {t : Text} :
    (∃ n, parseAt start t = .error (.oversized n)) ↔ Overlong start t :=
  ⟨fun ⟨_, h⟩ => overlong_of_parseAt h, parseAt_of_overlong⟩

/-- A binding is refused for a numeral exactly when its text holds one
that stops its reader. -/
theorem parseBinding_eq_oversized {t : Text} :
    (∃ n, parseBinding t = .error (.oversized n)) ↔ Overlong 0 t := by
  simp only [← parseAt_eq_oversized, parseBinding, bind_pure_eq_error]

-- ===================================================== interpolations

/-- Code that holds a numeral that stops its reader; blank code is refused
for being blank. -/
def OverlongChunk (c : Chunk) : Prop := Text.isBlank c.code = false ∧ Overlong c.offset c.code

/-- A text with such code in an interpolation, past code that can be
read. -/
def OverlongBetween (t : Text) : Prop :=
  ∃ i, Interpolated.split t = some i
    ∧ Reaches (fun c => ∃ e, ofChunk c = .ok e) OverlongChunk i.chunks

/-- A chunk is too long exactly when it is overlong by itself. -/
theorem ofChunk_eq_oversized {c : Chunk} :
    (∃ n, ofChunk c = .error (.oversized n)) ↔ OverlongChunk c := by
  unfold ofChunk OverlongChunk
  by_cases hb : Text.isBlank c.code = true
  · simp [hb]
  · rw [if_neg hb, parseAt_eq_oversized]
    simp [hb]

/-- Interpolations are refused for a numeral exactly when the first code
that cannot be read holds one. -/
theorem parseInterpolated_eq_oversized {t : Text} :
    (∃ n, parseInterpolated t = .error (.oversized n)) ↔ OverlongBetween t := by
  unfold parseInterpolated OverlongBetween
  simp only [← refusal?_eq_some]
  cases Interpolated.split t with
  | none => simp
  | some i =>
      simp only [refusal?_bind_pure, refusal?_mapM, Option.some.injEq, exists_eq_left']
      rw [exists_findSome?_iff_reaches]
      refine reaches_congr (fun c _ => refusal?_eq_none) fun c _ => ?_
      simp only [refusal?_eq_some, ofChunk_eq_oversized]

end Expr

end KeyHarvest
