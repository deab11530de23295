/-
Prints that can stand inside a backtick literal. `Expr.printTickless` writes
an expression as `Expr.print` does, but for the backticks of its strings,
which it writes by their number. The print has no backtick, and its
backslashes are all in its strings, each in front of another code point; so
the literal around it cannot end in it (`printTickless_body`).

That the expression is read back from it (`parseAt_printTickless`) follows
from what the spellings of a string stand for, and from what is read of
tokens that are written with blanks between them.
-/
import KeyHarvest.Proofs.Expr.Layout
import KeyHarvest.Proofs.Expr.RoundTrip
import KeyHarvest.Proofs.Expr.Spelling

namespace KeyHarvest

-- ============================================================= prints

namespace Quote

/-- A code point inside quotes, a backtick by its number. -/
def tick (q : Quote) (c : CodePoint) : Text :=
  if c = '`' then Text.ofString "\\u0060" else q.guard c

/-- How a token is written without backticks. -/
def spellTickless (q : Quote) : TokenKind Text → Text
  | .text value => between q.char (value.flatMap q.tick)
  | k => q.spell k

end Quote

/-- An expression as a text without backticks: its tokens with one space
between them. -/
def Expr.printTickless (q : Quote) (e : Expr) : Text :=
  Text.join [' '] (e.tokens.map q.spellTickless)

-- ============================================================== bodies

namespace QuotedBody

variable {q r : CodePoint} {a b : Text}

/-- Two bodies one behind the other are a body. -/
theorem append (ha : QuotedBody q a) (hb : QuotedBody q b) : QuotedBody q (a ++ b) := by
  induction ha with
  | nil => exact hb
  | plain hq hback _ ih => exact .plain hq hback ih
  | escaped c _ ih => exact .escaped c ih

/-- A text without the quote and without a backslash is a body. -/
theorem of_forall (h : ∀ c ∈ b, c ≠ q ∧ c ≠ '\\') : QuotedBody q b := by
  induction b with
  | nil => exact .nil
  | cons c b ih =>
      obtain ⟨hc, hb⟩ := List.forall_mem_cons.1 h
      exact .plain hc.1 hc.2 (ih hb)

/-- What stands between some quotes can stand between others, when it has
none of them. -/
theorem of_not_mem (h : QuotedBody q b) (hr : r ∉ b) : QuotedBody r b := by
  induction h with
  | nil => exact .nil
  | plain _ hback _ ih =>
      rw [List.mem_cons, not_or] at hr
      exact .plain (Ne.symm hr.1) hback (ih hr.2)
  | escaped c _ ih =>
      rw [List.mem_cons, List.mem_cons, not_or, not_or] at hr
      exact .escaped c (ih hr.2.2)

end QuotedBody

-- ============================================================ spelling

namespace Quote

variable {q : Quote}

/-- The spelling without backticks is one of the spellings of a code point.
-/
theorem spells_tick (c : CodePoint) : Spells q c (q.tick c) := by
  have hdigits : List.Forall₂ IsHexDigit (nibbles (CodePoint.ofChar '`').val)
      (Text.ofString "0060") :=
    .cons (.inl rfl) (.cons (.inl rfl) (.cons (.inl rfl) (.cons (.inl rfl) .nil)))
  unfold tick guard
  split
  · next htick =>
      rw [htick]
      exact .number (by decide) hdigits
  · split
    · next hguarded =>
        refine .escaped ?_
        rcases hguarded with rfl | rfl
        · decide
        · cases q <;> decide
    · next hplain =>
        rw [not_or] at hplain
        exact .plain hplain.2 hplain.1

/-- No backtick stands in the spelling of a code point. -/
theorem backtick_not_mem_tick (c : CodePoint) : CodePoint.ofChar '`' ∉ q.tick c := by
  unfold tick guard
  split
  · decide
  · next htick =>
      split
      · rw [List.mem_cons, List.mem_singleton, not_or]
        exact ⟨by decide, Ne.symm htick⟩
      · rw [List.mem_singleton]
        exact Ne.symm htick

/-- A text is spelled code point by code point. -/
theorem forall₂_tick (v : Text) : List.Forall₂ (Spells q) v (v.map q.tick) := by
  rw [List.forall₂_map_right_iff, List.forall₂_same]
  exact fun c _ => spells_tick c

/-- A spelled token is the only one of its text. -/
theorem begins_spell {k : TokenKind Text} (h : k.Spellable) :
    ∃ rest, k.Begins rest (q.spell k) := by
  have hall : ∀ x ∈ [k], x.Spellable := List.forall_mem_singleton.2 h
  obtain ⟨ts, hts, hkinds⟩ := tokens_join_spell q hall (List.cons_ne_nil _ _) 0
  have hsplit : Lexeme.split (q.spell k) = [⟨k.pieceKind, q.spell k⟩] := by
    have hone := split_append (t := []) (cutsAs_spell q h) trivial
    rwa [List.append_nil, Lexeme.split] at hone
  have hspellings : Lexeme.spellings (q.spell k) = [q.spell k] := by
    rw [Lexeme.spellings, hsplit]
    cases k <;> rfl
  rw [List.map_singleton, join_singleton] at hts
  have hbegins := Lexeme.forall₂_spellings hts
  rw [hkinds, hspellings] at hbegins
  cases hbegins with
  | cons hk _ => exact hk

/-- What is written without backticks begins with the token, whatever
follows. -/
theorem begins_spellTickless {k : TokenKind Text} (h : k.Spellable) :
    ∃ rest, k.Begins rest (q.spellTickless k) := by
  cases k with
  | text v => exact ⟨_, begins_spelled (forall₂_tick v)⟩
  | _ => exact begins_spell (q := q) h

/-- A class of code points without backticks and backslashes. -/
theorem forall_ne_of_class {p : CodePoint → Bool} (htick : p '`' = false) (hback : p '\\' = false)
    {w : Text} (h : ∀ c ∈ w, p c = true) : ∀ c ∈ w, c ≠ '`' ∧ c ≠ '\\' := by
  intro c hc
  constructor
  · rintro rfl
    rw [h _ hc] at htick
    cases htick
  · rintro rfl
    rw [h _ hc] at hback
    cases hback

/-- Neither a backtick nor a backslash stands in an identifier. -/
theorem forall_ne_of_isIdentifier {n : Text} (h : Text.isIdentifier n = true) :
    ∀ c ∈ n, c ≠ '`' ∧ c ≠ '\\' := by
  cases n with
  | nil => cases h
  | cons c cs =>
      obtain ⟨hc, hcs⟩ := Bool.and_eq_true_iff.1 h
      have hhead := forall_ne_of_class (p := Lexeme.startsWord) (w := [c]) (by decide) (by decide)
        (by simpa using hc)
      rw [List.forall_mem_cons]
      exact ⟨hhead c List.mem_cons_self, forall_ne_of_class (p := Lexeme.continuesWord)
        (by decide +kernel) (by decide +kernel) (List.all_eq_true.1 hcs)⟩

/-- Of the tokens only strings are written with backticks and
backslashes. -/
theorem forall_ne_of_spell {k : TokenKind Text} (h : k.Spellable) (htext : ∀ v, k ≠ .text v) :
    ∀ c ∈ q.spell k, c ≠ '`' ∧ c ≠ '\\' := by
  cases k with
  | keyword word => exact forall_ne_of_isIdentifier (isIdentifier_spelling word)
  | name n => exact forall_ne_of_isIdentifier h.1
  | text v => exact absurd rfl (htext v)
  | number value =>
      cases value with
      | float x => exact h.elim
      | integer n =>
          exact forall_ne_of_class (p := CodePoint.isAsciiDigit) (by decide) (by decide)
            fun c hc => isAsciiDigit_of_mem_ofNat hc
  | template body => exact h.elim
  | operator op =>
      have hall : ∀ op ∈ Operator.all, ∀ c ∈ op.spelling, c ≠ '`' ∧ c ≠ '\\' := by
        decide +kernel
      exact hall op op.mem_all
  | mark m =>
      show ∀ c ∈ [CodePoint.ofChar m.char], c ≠ '`' ∧ c ≠ '\\'
      cases m <;> decide

/-- A token is written without backticks, and with no backslash at its end
that would take what follows. -/
theorem spellTickless_body {k : TokenKind Text} (h : k.Spellable) :
    CodePoint.ofChar '`' ∉ q.spellTickless k ∧ QuotedBody '`' (q.spellTickless k) := by
  by_cases htext : ∃ v, k = .text v
  · obtain ⟨v, rfl⟩ := htext
    have hquote : q.char ≠ '`' ∧ q.char ≠ '\\' := by cases q <;> decide
    have hinner : CodePoint.ofChar '`' ∉ v.flatMap q.tick := by
      rw [List.mem_flatMap]
      rintro ⟨c, -, hc⟩
      exact backtick_not_mem_tick c hc
    have hbody : QuotedBody '`' (v.flatMap q.tick) :=
      (quotedBody_flatten (forall₂_tick v)).of_not_mem hinner
    refine ⟨?_, .plain hquote.1 hquote.2 (hbody.append (.plain hquote.1 hquote.2 .nil))⟩
    simp only [spellTickless, between, List.mem_cons, List.mem_append, List.not_mem_nil, or_false,
      not_or]
    exact ⟨⟨Ne.symm hquote.1, hinner⟩, Ne.symm hquote.1⟩
  · have hspell : q.spellTickless k = q.spell k := by
      cases k with
      | text v => exact absurd ⟨v, rfl⟩ htext
      | _ => rfl
    have hne := forall_ne_of_spell (q := q) h fun v hv => htext ⟨v, hv⟩
    rw [hspell]
    exact ⟨fun hmem => (hne _ hmem).1 rfl, .of_forall hne⟩

end Quote

-- ============================================================= reading

/-- Texts with the gaps that joining them with spaces leaves. -/
def gaps : List Text → List (Text × Text)
  | [] => []
  | [w] => [(w, [])]
  | w :: v :: ws => (w, [CodePoint.ofChar ' ']) :: gaps (v :: ws)

/-- Texts and gaps make up the joined text, and every gap but the last has a
blank. -/
theorem gaps_spec (ws : List Text) :
    (gaps ws).map Prod.fst = ws ∧ (gaps ws).flatMap (fun x => x.1 ++ x.2) = Text.join [' '] ws
      ∧ (∀ x ∈ gaps ws, Text.isBlank x.2 = true) ∧ ∀ x ∈ (gaps ws).dropLast, x.2 ≠ [] := by
  fun_induction gaps ws with
  | case1 => exact ⟨rfl, rfl, nofun, nofun⟩
  | case2 w => simp [join_singleton, Text.isBlank]
  | case3 w v ws ih =>
      obtain ⟨hfst, hjoin, hblank, hinner⟩ := ih
      have hne : gaps (v :: ws) ≠ [] := by
        intro hnil
        rw [hnil] at hfst
        cases hfst
      refine ⟨by rw [List.map_cons, hfst], ?_, List.forall_mem_cons.2 ⟨rfl, hblank⟩, ?_⟩
      · rw [List.flatMap_cons, hjoin, join_cons_cons, List.append_assoc, List.singleton_append]
      · rw [List.dropLast_cons_of_ne_nil hne, List.forall_mem_cons]
        exact ⟨by simp, hinner⟩

/-- Tokens with a space between neighbours are read back, however they are
written. -/
theorem tokenize_join {ks : List (TokenKind Text)} {ws : List Text}
    (h : List.Forall₂ (fun k raw => ∃ rest, TokenKind.Begins rest raw k) ks ws) (start : Nat) :
    ∃ ts, tokenize start (Text.join [' '] ws) = .ok ts ∧ ts.map Token.kind = ks := by
  obtain ⟨hfst, hjoin, hblank, hinner⟩ := gaps_spec ws
  obtain ⟨ts, hts, hkinds, -⟩ := Lexeme.tokens_lay (hfst.symm ▸ h) hblank hinner start
  exact ⟨ts, hjoin ▸ hts, hkinds⟩

namespace Expr

open Grammar

variable {q : Quote} {e : Expr}

/-- What a substitution can hold: nothing, or an expression that is
printed. -/
def Substitutable (e : Expr) : Prop := e = .empty ∨ e.Printable

theorem tokens_empty : Expr.empty.tokens = [] := by simp [tokens]

/-- The tokens of what a substitution holds can be spelled. -/
theorem Substitutable.spellable (h : e.Substitutable) : ∀ k ∈ e.tokens, k.Spellable := by
  rcases h with rfl | h
  · rw [tokens_empty]
    exact nofun
  · exact spellable_tokens h

/-- The print of an expression has the tokens of the expression, wherever it
stands. -/
theorem tokenize_printTickless (h : e.Substitutable) (start : Nat) :
    ∃ ts, tokenize start (e.printTickless q) = .ok ts ∧ ts.map Token.kind = e.tokens := by
  refine tokenize_join ?_ start
  rw [List.forall₂_map_right_iff, List.forall₂_same]
  exact fun k hk => Quote.begins_spellTickless (h.spellable k hk)

/-- Reading the print of an expression gives it back, wherever the print
stands. -/
theorem parseAt_printTickless (h : e.Substitutable) (start : Nat) :
    parseAt start (e.printTickless q) = .ok e := by
  obtain ⟨ts, hts, hkinds⟩ := tokenize_printTickless (q := q) h start
  rw [parseAt_eq, hts]
  refine whole_eq_ok.2 ?_
  rcases h with rfl | h
  · have hnil : ts = [] := List.map_eq_nil_iff.1 (hkinds.trans tokens_empty)
    exact .inl ⟨by rw [hnil]; rfl, rfl⟩
  · have hrestores : Restores (start + (e.printTickless q).length) e := restores_of_printable h
    have hitems : plain (ts.map toItem) = e.tokens ++ [] := by
      rw [plain_map_toItem, hkinds, List.append_nil]
    obtain ⟨r, hr, hread⟩ := hrestores.closed (stops_nil _) nofun _ hitems
    obtain rfl : r = [] := List.map_eq_nil_iff.1 hr
    exact .inr hread

/-- A print holds no backtick, and a backtick literal goes on behind it. -/
theorem printTickless_body (h : e.Substitutable) :
    CodePoint.ofChar '`' ∉ e.printTickless q ∧ QuotedBody '`' (e.printTickless q) := by
  have hjoin : ∀ ks : List (TokenKind Text), (∀ k ∈ ks, k.Spellable) →
      CodePoint.ofChar '`' ∉ Text.join [' '] (ks.map q.spellTickless)
        ∧ QuotedBody '`' (Text.join [' '] (ks.map q.spellTickless)) := by
    intro ks
    induction ks with
    | nil => exact fun _ => ⟨List.not_mem_nil, .nil⟩
    | cons k ks ih =>
        intro hks
        obtain ⟨hk, hks⟩ := List.forall_mem_cons.1 hks
        obtain ⟨hfree, hbody⟩ := Quote.spellTickless_body (q := q) hk
        cases ks with
        | nil =>
            rw [List.map_singleton, join_singleton]
            exact ⟨hfree, hbody⟩
        | cons k' ks =>
            obtain ⟨hrestfree, hrest⟩ := ih hks
            rw [List.map_cons, List.map_cons, join_cons_cons, ← List.map_cons]
            refine ⟨?_, hbody.append (.plain (by decide) (by decide) hrest)⟩
            rw [List.mem_append, List.mem_cons, not_or, not_or]
            exact ⟨hfree, by decide, hrestfree⟩
  exact hjoin e.tokens h.spellable

end Expr

end KeyHarvest
