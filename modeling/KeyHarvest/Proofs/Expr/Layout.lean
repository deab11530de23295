/-
Layout does not matter. The tokens of a text can be written again with
other blanks around them (`lay`), at least one between neighbours. A token
that is read in front of something else is read in front of a blank too
(`TokenKind.Begins.before`): no form of token has a blank in it, quotations
apart, and these end at their quote. So the tokens are the same, each where
it is written now, and the grammar, which asks for positions only to report
them, reads the same tree or refuses for the same cause.
-/
import KeyHarvest.Proofs.Expr.Scan

namespace KeyHarvest

-- ============================================================= layout

/-- The texts of the tokens in a text: its pieces without the blank
ones. -/
def Lexeme.spellings (t : Text) : List Text :=
  ((Lexeme.split t).filter fun l => l.kind ≠ .blank).map Lexeme.raw

/-- Texts written one after the other, each with a gap behind it, and a gap
in front of the first. -/
def lay (lead : Text) (xs : List (Text × Text)) : Text :=
  lead ++ xs.flatMap fun x => x.1 ++ x.2

/-- Where texts begin that are written with gaps from a position on. -/
def layStarts (p : Nat) : List (Text × Text) → List Nat
  | [] => []
  | x :: xs => p :: layStarts (p + x.1.length + x.2.length) xs

/-- The refusals of one cause, wherever they are reported. -/
inductive SameCause : ExprError → ExprError → Prop where
  | malformed (fault : ExprFault) (p q : Nat) :
      SameCause (.malformed fault p) (.malformed fault q)
  | oversized (n : Nat) : SameCause (.oversized n) (.oversized n)

-- ============================================================= blanks

/-- The end of a text, or a blank. -/
def Parted (t : Text) : Prop := ∀ c cs, t = c :: cs → c.isBlank = true

/-- A text without blanks ends before one. -/
theorem isPrefix_of_parted {v w t : Text} (hv : ∀ c ∈ v, c.isBlank = false) (ht : Parted t)
    (h : v <+: w ++ t) : v <+: w := by
  rcases Nat.le_total v.length w.length with hle | hle
  · exact List.prefix_of_prefix_length_le h (List.prefix_append _ _) hle
  · obtain ⟨u, rfl⟩ := List.prefix_of_prefix_length_le (List.prefix_append _ _) h hle
    cases u with
    | nil => rw [List.append_nil]
    | cons c u =>
        obtain ⟨r, hr⟩ := (List.prefix_append_right_inj w).1 h
        have hc := ht c (u ++ r) hr.symm
        rw [hv c (by simp)] at hc
        cases hc

/-- No blank is in a word. -/
theorem isBlank_of_mem_word {w : Text} (h : IsWord w) : ∀ c ∈ w, c.isBlank = false := by
  cases w with
  | nil => simp
  | cons d ds =>
      obtain ⟨hd, hds⟩ := isWord_cons.1 h
      intro c hc
      rw [← Bool.not_eq_true]
      intro hblank
      obtain ⟨hcontinues, hstarts, -⟩ := isBlank_classes hblank
      rcases List.mem_cons.1 hc with rfl | hc
      · rw [hd] at hstarts
        cases hstarts
      · rw [hds c hc] at hcontinues
        cases hcontinues

/-- No blank is in a numeral. -/
theorem isBlank_of_mem_numeral {w : Text} (h : IsNumeral w) : ∀ c ∈ w, c.isBlank = false := by
  obtain ⟨n, rfl⟩ := h
  intro c hc
  have hall : n.spelling.take (Lexeme.numberLength n.spelling) = n.spelling :=
    List.take_of_length_le (Lexeme.length_le_numberLength n (List.prefix_refl _))
  rw [← hall] at hc
  have hchar := Lexeme.mem_take_numberLength hc
  rw [← Bool.not_eq_true]
  intro hblank
  rw [(isBlank_classes hblank).2.2] at hchar
  cases hchar

/-- No blank is in an operator. -/
theorem isBlank_of_mem_operator (op : Operator) : ∀ c ∈ op.spelling, c.isBlank = false := by
  have hall : ∀ op ∈ Operator.all, ∀ c ∈ op.spelling, c.isBlank = false := by decide +kernel
  exact hall op op.mem_all

/-- The longest beginning of a form stays the longest in front of a
blank. -/
theorem IsLongest.before {form : Text → Prop} (hform : ∀ w, form w → ∀ c ∈ w, c.isBlank = false)
    {t w b : Text} (h : IsLongest form t w) (hb : Parted b) : IsLongest form (w ++ b) w where
  holds := h.holds
  begins := List.prefix_append _ _
  longest := by
    intro v hv hpre
    exact (isPrefix_of_parted (hform v hv) hb hpre).length_le

/-- A token stays the same in front of a blank. -/
theorem TokenKind.Begins.before {t raw b : Text} {k : TokenKind Text} (h : k.Begins t raw)
    (hb : Parted b) : k.Begins (raw ++ b) raw := by
  have hpre : raw <+: raw ++ b := List.prefix_append _ _
  cases k with
  | keyword w => exact ⟨h.1.before (fun _ => isBlank_of_mem_word) hb, h.2⟩
  | name n => exact ⟨h.1.before (fun _ => isBlank_of_mem_word) hb, h.2⟩
  | text v =>
      obtain ⟨q, body, hq, hbody, hraw, -, hv⟩ := h
      exact ⟨q, body, hq, hbody, hraw, hpre, hv⟩
  | number v => exact ⟨h.1.before (fun _ => isBlank_of_mem_numeral) hb, h.2⟩
  | template body => exact ⟨h.1, h.2.1, hpre⟩
  | operator op =>
      obtain ⟨rfl, hspelled, hlongest⟩ := h
      refine ⟨rfl, ⟨hpre, ?_⟩, ?_⟩
      · rintro rfl c cs hdrop
        have hdrop : b = c :: cs := hdrop
        have hnumber := (isBlank_classes (hb c cs hdrop)).2.2
        rw [← Bool.not_eq_true]
        intro hc
        simp [Lexeme.isNumberChar, hc] at hnumber
      · intro op' hop'
        exact (isPrefix_of_parted (isBlank_of_mem_operator op') hb hop'.begins).length_le
  | mark m =>
      obtain ⟨hraw, hbegins, hnumeral⟩ := h
      refine ⟨hraw, hpre, ?_⟩
      intro w hw hwpre
      exact hnumeral w hw ((isPrefix_of_parted (isBlank_of_mem_numeral hw) hb hwpre).trans hbegins)

-- ============================================================= tokens

namespace Lexeme

/-- Blanks have no tokens. -/
theorem tokens_of_blanks {w : Text} (hw : Text.isBlank w = true) (t : Text) (p : Nat) :
    tokens p (split (w ++ t)) = tokens (p + w.length) (split t) := by
  induction w generalizing p with
  | nil => rfl
  | cons c cs ih =>
      rw [Text.isBlank, List.all_cons, Bool.and_eq_true] at hw
      rw [List.cons_append, tokens_of_isBlank hw.1, ih hw.2, List.length_cons, Nat.add_assoc,
        Nat.add_comm 1]

/-- The tokens of a text are those that its spellings are read as. -/
theorem forall₂_spellings {t : Text} {p : Nat} {ts : List (Token Text)}
    (h : tokens p (split t) = .ok ts) :
    List.Forall₂ (fun k raw => ∃ rest, TokenKind.Begins rest raw k) (ts.map Token.kind)
      (spellings t) := by
  unfold spellings
  fun_induction split t generalizing p ts with
  | case1 =>
      cases h
      exact .nil
  | case2 c cs ih =>
      have hwhole : tokens p (split (c :: cs)) = .ok ts := by rw [split]; exact h
      obtain ⟨o, rest, ho, hrest, rfl⟩ := tokens_cons_eq_ok h
      have ih := ih hrest
      change (first c cs).token? p = .ok o at ho
      show List.Forall₂ _ _ (((first c cs :: _).filter _).map _)
      by_cases hc : c.isBlank = true
      · have hkind : (first c cs).kind = .blank := by rw [first, extent, if_pos hc]
        have hnone : o = none := by
          rw [token?, hkind] at ho
          exact (Except.ok.inj ho).symm
        rw [List.filter_cons_of_neg (by simpa using hkind), hnone]
        exact ih
      · rcases exists_begins (Bool.eq_false_iff.2 hc) cs with ⟨raw, k, hk⟩ | ⟨n, hn⟩ | hstuck
        · obtain ⟨hraw, htoken⟩ := token?_of_begins hk p
          have hkind : (first c cs).kind ≠ .blank := by
            intro hkind
            rw [token?, hkind] at htoken
            cases htoken
          have hsome : o = some ⟨k, p⟩ := Except.ok.inj (ho.symm.trans htoken)
          rw [List.filter_cons_of_pos (by simpa using hkind), hsome]
          exact .cons ⟨c :: cs, hraw ▸ hk⟩ ih
        · rw [tokens_of_overflows hn] at hwhole
          cases hwhole
        · rw [tokens_of_stuck hstuck] at hwhole
          cases hwhole

/-- The tokens of texts that are written with gaps. -/
theorem tokens_lay {ks : List (TokenKind Text)} {xs : List (Text × Text)}
    (h : List.Forall₂ (fun k raw => ∃ rest, TokenKind.Begins rest raw k) ks (xs.map Prod.fst))
    (hgaps : ∀ x ∈ xs, Text.isBlank x.2 = true) (hinner : ∀ x ∈ xs.dropLast, x.2 ≠ []) (p : Nat) :
    ∃ us, tokens p (split (xs.flatMap fun x => x.1 ++ x.2)) = .ok us
      ∧ us.map Token.kind = ks ∧ us.map Token.position = layStarts p xs := by
  induction xs generalizing ks p with
  | nil =>
      cases h
      refine ⟨[], ?_, rfl, rfl⟩
      rw [List.flatMap_nil, split]
      rfl
  | cons x xs ih =>
      obtain ⟨raw, gap⟩ := x
      cases h with
      | @cons k _ ks _ hk hks =>
          obtain ⟨rest, hk⟩ := hk
          have hgap : Text.isBlank gap = true := hgaps _ List.mem_cons_self
          have hrest : ∀ x ∈ xs.dropLast, x.2 ≠ [] := by
            intro y hy
            cases xs with
            | nil => cases hy
            | cons z zs => exact hinner y (List.mem_cons_of_mem _ hy)
          have hparted : Parted (gap ++ xs.flatMap fun x => x.1 ++ x.2) := by
            cases gap with
            | cons c cs =>
                intro d ds hd
                obtain ⟨rfl, -⟩ := List.cons.inj hd
                exact List.all_eq_true.1 hgap c List.mem_cons_self
            | nil =>
                cases xs with
                | nil => rintro c cs ⟨⟩
                | cons z zs => exact absurd rfl (hinner _ List.mem_cons_self)
          obtain ⟨us, hus, hkinds, hpositions⟩ := ih hks
            (fun y hy => hgaps y (List.mem_cons_of_mem _ hy)) hrest (p + raw.length + gap.length)
          refine ⟨⟨k, p⟩ :: us, ?_, ?_, ?_⟩
          · rw [List.flatMap_cons, List.append_assoc, tokens_of_begins (hk.before hparted),
              List.drop_left, tokens_of_blanks hgap, hus]
            rfl
          · rw [List.map_cons, hkinds]
          · rw [List.map_cons, hpositions]
            rfl

end Lexeme

-- ============================================================ grammar

namespace Grammar

/-- Items that the grammar can tell apart by their positions alone are read
alike. -/
theorem placelessSimulation (stop stop' : Nat) :
    Simulation stop stop' SameCause (List.Forall₂ fun t u => Kin SameCause t.kind u.kind) where
  front := by
    intro ts us h
    cases h with
    | nil =>
        refine .ended rfl rfl (e := .malformed .unexpectedEnd stop)
          (f := .malformed .unexpectedEnd stop') ?_ ?_ (.malformed _ _ _)
        · rw [primary]
          rfl
        · rw [primary]
          rfl
    | @cons t u r s htu hrs => exact .step htu hrs
  fault := fun _ _ => .malformed _ _ _

end Grammar

namespace Expr

/-- A backtick body says the same wherever it stands. -/
theorem alike_readBody_anywhere (p q : Nat) (raw : Text) :
    Grammar.Alike Eq SameCause (readBody p raw) (readBody q raw) := by
  rw [← Nat.zero_add p, ← Nat.zero_add q, readBody_add, readBody_add]
  cases readBody 0 raw with
  | ok e => exact .ok rfl
  | error e =>
      cases e with
      | malformed fault n => exact SameCause.malformed fault _ _
      | oversized n => exact SameCause.oversized n

/-- Tokens of one kind are alike wherever they stand. -/
theorem kin_toItem {t u : Token Text} (h : t.kind = u.kind) :
    Grammar.Kin SameCause (toItem t).kind (toItem u).kind := by
  obtain ⟨k, p⟩ := t
  obtain ⟨_, q⟩ := u
  cases h
  cases k with
  | template raw => exact .literal (alike_readBody_anywhere (p + 1) (q + 1) raw)
  | keyword word => exact .same (.keyword word)
  | name n => exact .same (.name n)
  | text value => exact .same (.text value)
  | number value => exact .same (.number value)
  | operator op => exact .same (.operator op)
  | mark m => exact .same (.mark m)

/-- Texts with tokens of the same kinds give the same tree, or are refused
for the same cause. -/
theorem alike_parseAt {t t' : Text} {ts us : List (Token Text)} (hts : tokenize 0 t = .ok ts)
    (hus : tokenize 0 t' = .ok us) (hkinds : us.map Token.kind = ts.map Token.kind) :
    Grammar.Alike Eq SameCause (parseAt 0 t) (parseAt 0 t') := by
  rw [parseAt_eq, parseAt_eq, hts, hus]
  refine Grammar.alike_whole_of_forall₂ (Grammar.placelessSimulation _ _) id ?_
  rw [List.forall₂_map_left_iff, List.forall₂_map_right_iff]
  have hsame : List.Forall₂ (fun t u : Token Text => t.kind = u.kind) ts us := by
    rw [← List.forall₂_map_left_iff (f := Token.kind) (R := fun k u => k = Token.kind u),
      ← List.forall₂_map_right_iff (f := Token.kind) (R := fun k k' => k = k'),
      List.forall₂_eq_eq_eq]
    exact hkinds.symm
  exact hsame.imp fun t u h => kin_toItem h

end Expr

-- ============================================================== texts

/-- Layout does not matter: with other blanks around its tokens a text has
the same tokens, each where it is written now, and as a binding it gives
the same tree or is refused for the same cause. -/
theorem layout_irrelevant {t : Text} {ts : List (Token Text)} (hts : tokenize 0 t = .ok ts)
    {lead : Text} {xs : List (Text × Text)} (hspelled : xs.map Prod.fst = Lexeme.spellings t)
    (hlead : Text.isBlank lead = true) (hgaps : ∀ x ∈ xs, Text.isBlank x.2 = true)
    (hinner : ∀ x ∈ xs.dropLast, x.2 ≠ []) :
    (∃ us, tokenize 0 (lay lead xs) = .ok us ∧ us.map Token.kind = ts.map Token.kind
        ∧ us.map Token.position = layStarts lead.length xs)
      ∧ ((∃ e, Expr.parseBinding t = .ok (.sourced e t)
            ∧ Expr.parseBinding (lay lead xs) = .ok (.sourced e (lay lead xs)))
          ∨ ∃ e f, Expr.parseBinding t = .error e ∧ Expr.parseBinding (lay lead xs) = .error f
            ∧ SameCause e f) := by
  have hbegins := Lexeme.forall₂_spellings hts
  rw [← hspelled] at hbegins
  obtain ⟨us, hus, hkinds, hpositions⟩ := Lexeme.tokens_lay hbegins hgaps hinner lead.length
  have hlay : tokenize 0 (lay lead xs) = .ok us := by
    rw [tokenize, lay, Lexeme.tokens_of_blanks hlead, Nat.zero_add]
    exact hus
  refine ⟨⟨us, hlay, hkinds, hpositions⟩, ?_⟩
  have halike := Expr.alike_parseAt hts hlay hkinds
  unfold Expr.parseBinding
  cases he : Expr.parseAt 0 t with
  | ok e =>
      cases hf : Expr.parseAt 0 (lay lead xs) with
      | ok f =>
          rw [he, hf] at halike
          obtain rfl : e = f := halike
          exact .inl ⟨e, rfl, rfl⟩
      | error f =>
          rw [he, hf] at halike
          exact halike.elim
  | error e =>
      cases hf : Expr.parseAt 0 (lay lead xs) with
      | ok f =>
          rw [he, hf] at halike
          exact halike.elim
      | error f =>
          rw [he, hf] at halike
          exact .inr ⟨e, f, rfl, rfl, halike⟩

/-- An optional access with blanks around its operator. -/
theorem layout_irrelevant_access :
    ∃ us, tokenize 0 (lay ['\n'] [(['a'], [' ']), (['?', '.'], ['\t', ' ']), (['b'], [])]) = .ok us
      ∧ us.map Token.kind = [.name ['a'], .operator .optional, .name ['b']]
      ∧ us.map Token.position = [1, 3, 7] := by
  have hts : tokenize 0 ['a', '?', '.', 'b']
      = .ok [⟨.name ['a'], 0⟩, ⟨.operator .optional, 1⟩, ⟨.name ['b'], 3⟩] := by decide +kernel
  exact (layout_irrelevant hts (by decide +kernel) (by decide) (by decide) (by decide)).1

end KeyHarvest
