/-
What each symbol of the grammar reads. A successful reading is a value
and the tokens left over; `Reads` and `Trails` say so without the proof
that the two carry. For every function of the grammar there is one lemma
that says exactly when it succeeds and with what, in terms of the
functions it calls. Nothing after this file unfolds the grammar.

# Loops

Three symbols are loops: pipes, the binary levels, and the reads and calls
on a receiver. One turn of a loop is a relation of its own (`PipeStep`,
`BinaryStep`, `AccessStep`), from an expression and the tokens after it to
a larger expression and what is left. A loop ends at a token that does not
continue it: `joins` gives the symbol that goes on at a token, and `joint`
the one that goes on at the next token.
-/
import KeyHarvest.Expr.Grammar
import KeyHarvest.Proofs.Refusal

namespace KeyHarvest.Grammar

variable {α β : Type} {stop : Nat} {ts : List Item}

-- ============================================================ symbols

/-- The symbols of the grammar that stand for an expression; level 0 of
the binary ones is `**`. -/
inductive Symbol where
  | primary
  | access
  | unary
  | binary (level : Nat)
  | cond
  | pipe
  deriving DecidableEq, Repr

/-- The function that reads a symbol. -/
def read (stop : Nat) : Symbol → (ts : List Item) → Except ExprError (Reading Expr ts)
  | .primary => primary stop
  | .access => access stop
  | .unary => unary stop
  | .binary level => binary stop level
  | .cond => cond stop
  | .pipe => pipe stop

/-- The symbol that goes on at a token of this kind, if one does. -/
def joins {τ : Type} : TokenKind τ → Option Symbol
  | .mark .dot | .mark .openBracket | .mark .openParen => some .access
  | .operator .optional | .operator .bang => some .access
  | .operator (.binary op) => some (.binary op.level)
  | .operator .question => some .cond
  | .operator .bar => some .pipe
  | _ => none

/-- The symbol that goes on at the next token. -/
def joint : List Item → Option Symbol
  | [] => none
  | t :: _ => joins t.kind

/-- The tokens at which each symbol goes on. -/
theorem joins_eq_some {τ : Type} {k : TokenKind τ} {s : Symbol} (h : joins k = some s) :
    (s = .access ∧ (k = .mark .dot ∨ k = .mark .openBracket ∨ k = .mark .openParen
        ∨ k = .operator .optional ∨ k = .operator .bang))
      ∨ (∃ op, s = .binary op.level ∧ k = .operator (.binary op))
      ∨ (s = .cond ∧ k = .operator .question)
      ∨ (s = .pipe ∧ k = .operator .bar) := by
  cases k with
  | operator op => cases op <;> simp_all [joins]
  | mark m => cases m <;> simp_all [joins]
  | _ => cases h

/-- The next token, when a symbol goes on there. -/
theorem exists_joins_of_joint {s : Symbol} (h : joint ts = some s) :
    ∃ k p r, joins k = some s ∧ ts = ⟨k, p⟩ :: r := by
  cases ts with
  | nil => cases h
  | cons t r => exact ⟨t.kind, t.position, r, h, rfl⟩

/-- A pipe joins at a bar. -/
theorem joint_eq_pipe :
    joint ts = some .pipe ↔ ∃ p r, ts = ⟨.operator .bar, p⟩ :: r := by
  constructor
  · intro h
    obtain ⟨k, p, r, hk, rfl⟩ := exists_joins_of_joint h
    rcases joins_eq_some hk with ⟨hs, -⟩ | ⟨op, hs, -⟩ | ⟨hs, -⟩ | ⟨-, rfl⟩
    · cases hs
    · cases hs
    · cases hs
    · exact ⟨p, r, rfl⟩
  · rintro ⟨p, r, rfl⟩
    rfl

/-- A conditional joins at a question mark. -/
theorem joint_eq_cond :
    joint ts = some .cond ↔ ∃ p r, ts = ⟨.operator .question, p⟩ :: r := by
  constructor
  · intro h
    obtain ⟨k, p, r, hk, rfl⟩ := exists_joins_of_joint h
    rcases joins_eq_some hk with ⟨hs, -⟩ | ⟨op, hs, -⟩ | ⟨-, rfl⟩ | ⟨hs, -⟩
    · cases hs
    · cases hs
    · exact ⟨p, r, rfl⟩
    · cases hs
  · rintro ⟨p, r, rfl⟩
    rfl

/-- A level joins at one of its operators. -/
theorem joint_eq_binary {n : Nat} :
    joint ts = some (.binary n)
      ↔ ∃ op p r, op.level = n ∧ ts = ⟨.operator (.binary op), p⟩ :: r := by
  constructor
  · intro h
    obtain ⟨k, p, r, hk, rfl⟩ := exists_joins_of_joint h
    rcases joins_eq_some hk with ⟨hs, -⟩ | ⟨op, hs, rfl⟩ | ⟨hs, -⟩ | ⟨hs, -⟩
    · cases hs
    · injection hs with hs
      exact ⟨op, p, r, hs.symm, rfl⟩
    · cases hs
    · cases hs
  · rintro ⟨op, p, r, rfl, rfl⟩
    rfl

-- ============================================================ results

/-- A reading that succeeds with a value and leaves a rest. -/
def Reads (x : Except ExprError (Reading α ts)) (v : α) (r : List Item) : Prop :=
  ∃ h, x = .ok ⟨v, r, h⟩

/-- The same for a reading that may have taken nothing. -/
def Trails (x : Except ExprError (Trailing α ts)) (v : α) (r : List Item) : Prop :=
  ∃ h, x = .ok ⟨v, r, h⟩

/-- What is read is not nothing. -/
theorem Reads.length_lt {x : Except ExprError (Reading α ts)} {v : α} {r : List Item}
    (h : Reads x v r) : r.length < ts.length := h.1

-- ============================================================== pipes

/-- One more pipe after an input. -/
inductive PipeStep (stop : Nat) (input : Expr) : List Item → Expr → List Item → Prop where
  | apply {p : Nat} {t : Item} {r s : List Item} {name : Text} {args : List Expr}
      (hn : nameOf? t = some name) (ha : Trails (pipeArgs stop r) args s) :
      PipeStep stop input (⟨.operator .bar, p⟩ :: t :: r) (.pipe input name args) s

/-- A pipe is an input and what follows it. -/
theorem pipe_iff {e : Expr} {s : List Item} :
    Reads (pipe stop ts) e s
      ↔ ∃ i r, Reads (cond stop ts) i r ∧ Trails (pipeTail stop i r) e s := by
  rw [pipe]
  constructor
  · rintro ⟨h, hx⟩
    obtain ⟨⟨i, r, hr⟩, hc, hx⟩ := bind_eq_ok.1 hx
    obtain ⟨⟨e', s', hs⟩, ht, hx⟩ := bind_eq_ok.1 hx
    cases hx
    exact ⟨i, r, ⟨hr, hc⟩, hs, ht⟩
  · rintro ⟨i, r, ⟨hr, hc⟩, hs, ht⟩
    simp only [hc, ht, bind, Except.bind]
    exact ⟨by omega, rfl⟩

/-- Pipes end before anything but a bar, or go on after one more. -/
theorem pipeTail_iff {input e : Expr} {u : List Item} :
    Trails (pipeTail stop input ts) e u
      ↔ (joint ts ≠ some .pipe ∧ e = input ∧ u = ts)
        ∨ ∃ i s, PipeStep stop input ts i s ∧ Trails (pipeTail stop i s) e u := by
  constructor
  · rintro ⟨h, hx⟩
    unfold pipeTail at hx
    split at hx
    · split at hx
      · next name hn =>
          obtain ⟨⟨args, s, hs⟩, ha, hx⟩ := bind_eq_ok.1 hx
          obtain ⟨⟨e', u', hu⟩, he, hx⟩ := bind_eq_ok.1 hx
          cases hx
          exact .inr ⟨_, s, .apply hn ⟨hs, ha⟩, hu, he⟩
      · cases hx
    · cases hx
    · next hmore hlast =>
        cases hx
        refine .inl ⟨?_, rfl, rfl⟩
        rw [ne_eq, joint_eq_pipe]
        rintro ⟨p, r, rfl⟩
        cases r with
        | nil => exact hlast p rfl
        | cons t r => exact hmore p t r rfl
  · rintro (⟨hj, rfl, rfl⟩ | ⟨i, s, hs, hu, he⟩)
    · rw [ne_eq, joint_eq_pipe] at hj
      rw [pipeTail]
      · exact ⟨Nat.le_refl _, rfl⟩
      · intro p t r h
        exact hj ⟨p, t :: r, h⟩
      · intro p h
        exact hj ⟨p, [], h⟩
    · obtain ⟨hn, hs, ha⟩ := hs
      rw [pipeTail]
      simp only [hn, ha, he, bind, Except.bind]
      exact ⟨by simp only [List.length_cons]; omega, rfl⟩

/-- The arguments of a pipe end before anything but a colon. -/
theorem pipeArgs_iff {args : List Expr} {u : List Item} :
    Trails (pipeArgs stop ts) args u
      ↔ ((∀ p r, ts ≠ ⟨.mark .colon, p⟩ :: r) ∧ args = [] ∧ u = ts)
        ∨ ∃ p r e s es, ts = ⟨.mark .colon, p⟩ :: r ∧ Reads (cond stop r) e s
          ∧ Trails (pipeArgs stop s) es u ∧ args = e :: es := by
  constructor
  · rintro ⟨h, hx⟩
    unfold pipeArgs at hx
    split at hx
    · next p r =>
        obtain ⟨⟨e, s, hs⟩, he, hx⟩ := bind_eq_ok.1 hx
        obtain ⟨⟨es, u', hu⟩, hes, hx⟩ := bind_eq_ok.1 hx
        cases hx
        exact .inr ⟨p, r, e, s, es, rfl, ⟨hs, he⟩, ⟨hu, hes⟩, rfl⟩
    · next hcolon =>
        cases hx
        exact .inl ⟨hcolon, rfl, rfl⟩
  · rintro (⟨hcolon, rfl, rfl⟩ | ⟨p, r, e, s, es, rfl, ⟨hs, he⟩, ⟨hu, hes⟩, rfl⟩)
    · rw [pipeArgs]
      · exact ⟨Nat.le_refl _, rfl⟩
      · exact hcolon
    · rw [pipeArgs]
      simp only [he, hes, bind, Except.bind]
      exact ⟨by simp only [List.length_cons]; omega, rfl⟩

/-- A choice has all three parts; without a question mark there is only an
operand. -/
theorem cond_iff {e : Expr} {w : List Item} :
    Reads (cond stop ts) e w
      ↔ (Reads (binary stop BinaryOp.loosest ts) e w ∧ joint w ≠ some .cond)
        ∨ ∃ test p s yes q v no,
            Reads (binary stop BinaryOp.loosest ts) test (⟨.operator .question, p⟩ :: s)
              ∧ Reads (pipe stop s) yes (⟨.mark .colon, q⟩ :: v)
              ∧ Reads (pipe stop v) no w ∧ e = .conditional test yes no := by
  rw [cond]
  constructor
  · rintro ⟨h, hx⟩
    obtain ⟨⟨test, r, hr⟩, ht, hx⟩ := bind_eq_ok.1 hx
    simp only at hx
    split at hx
    · next p s h' =>
        obtain ⟨⟨yes, u, hu⟩, hy, hx⟩ := bind_eq_ok.1 hx
        simp only at hx
        split at hx
        · next q v hu' =>
            obtain ⟨⟨no, w', hw⟩, hn, hx⟩ := bind_eq_ok.1 hx
            cases hx
            exact .inr ⟨test, p, s, yes, q, v, no, ⟨h', ht⟩, ⟨hu', hy⟩, ⟨hw, hn⟩, rfl⟩
        · cases hx
    · next hq =>
        cases hx
        refine .inl ⟨⟨hr, ht⟩, ?_⟩
        rw [ne_eq, joint_eq_cond]
        rintro ⟨p, s, rfl⟩
        exact hq p s _ rfl HEq.rfl
  · rintro (⟨⟨hr, ht⟩, hj⟩ | ⟨test, p, s, yes, q, v, no, ⟨hr, ht⟩, ⟨hu, hy⟩, ⟨hw, hn⟩, rfl⟩)
    · rw [ne_eq, joint_eq_cond] at hj
      simp only [ht, bind, Except.bind]
      split
      · next p s h' => exact absurd ⟨p, s, rfl⟩ hj
      · exact ⟨hr, rfl⟩
    · simp only [ht, hy, hn, bind, Except.bind]
      exact ⟨by simp only [List.length_cons] at hr hu; omega, rfl⟩

-- ========================================================== operators

/-- One more operator of the level above `n`, and its right operand. -/
inductive BinaryStep (stop n : Nat) (left : Expr) : List Item → Expr → List Item → Prop where
  | join {op : BinaryOp} {p : Nat} {r s : List Item} {right : Expr} (hop : op.level = n + 1)
      (hr : Reads (binary stop n r) right s) :
      BinaryStep stop n left (⟨.operator (.binary op), p⟩ :: r) (.binary op left right) s

theorem binary_zero : binary stop 0 ts = power stop ts := by
  rw [binary]

/-- A level is an operand of the next tighter one and what follows it. -/
theorem binary_succ_iff {n : Nat} {e : Expr} {s : List Item} :
    Reads (binary stop (n + 1) ts) e s
      ↔ ∃ left r, Reads (binary stop n ts) left r ∧ Trails (binaryTail stop n left r) e s := by
  rw [binary]
  constructor
  · rintro ⟨h, hx⟩
    obtain ⟨⟨left, r, hr⟩, hl, hx⟩ := bind_eq_ok.1 hx
    obtain ⟨⟨e', s', hs⟩, ht, hx⟩ := bind_eq_ok.1 hx
    cases hx
    exact ⟨left, r, ⟨hr, hl⟩, hs, ht⟩
  · rintro ⟨left, r, ⟨hr, hl⟩, hs, ht⟩
    simp only [hl, ht, bind, Except.bind]
    exact ⟨by omega, rfl⟩

/-- A level ends before anything but its operators, or goes on after one
of them. -/
theorem binaryTail_iff {n : Nat} {left e : Expr} {u : List Item} :
    Trails (binaryTail stop n left ts) e u
      ↔ (joint ts ≠ some (.binary (n + 1)) ∧ e = left ∧ u = ts)
        ∨ ∃ l s, BinaryStep stop n left ts l s ∧ Trails (binaryTail stop n l s) e u := by
  constructor
  · rintro ⟨h, hx⟩
    unfold binaryTail at hx
    split at hx
    · next op p r =>
        split at hx
        · next hop =>
            obtain ⟨⟨right, s, hs⟩, hr, hx⟩ := bind_eq_ok.1 hx
            obtain ⟨⟨e', u', hu⟩, he, hx⟩ := bind_eq_ok.1 hx
            cases hx
            exact .inr ⟨_, s, .join hop ⟨hs, hr⟩, hu, he⟩
        · next hop =>
            cases hx
            refine .inl ⟨?_, rfl, rfl⟩
            intro hj
            injection hj with hj
            injection hj with hj
            exact hop hj
    · next hother =>
        cases hx
        refine .inl ⟨?_, rfl, rfl⟩
        rw [ne_eq, joint_eq_binary]
        rintro ⟨op, p, r, -, rfl⟩
        exact hother op p r rfl
  · rintro (⟨hj, rfl, rfl⟩ | ⟨l, s, hs, hu, he⟩)
    · rw [ne_eq, joint_eq_binary] at hj
      unfold binaryTail
      split
      · next op p r =>
          rw [if_neg fun hop => hj ⟨op, p, r, hop, rfl⟩]
          exact ⟨Nat.le_refl _, rfl⟩
      · exact ⟨Nat.le_refl _, rfl⟩
    · obtain ⟨hop, hs, hr⟩ := hs
      rw [binaryTail, if_pos hop]
      simp only [hr, he, bind, Except.bind]
      exact ⟨by simp only [List.length_cons]; omega, rfl⟩

/-- A power has an exponent that is a power itself; without one there is
only a base. -/
theorem power_iff {e : Expr} {u : List Item} :
    Reads (power stop ts) e u
      ↔ (Reads (unary stop ts) e u ∧ joint u ≠ some (.binary 0))
        ∨ ∃ base p s exponent,
            Reads (unary stop ts) base (⟨.operator (.binary .pow), p⟩ :: s)
              ∧ Reads (power stop s) exponent u ∧ e = .binary .pow base exponent := by
  rw [power]
  constructor
  · rintro ⟨h, hx⟩
    obtain ⟨⟨base, r, hr⟩, hb, hx⟩ := bind_eq_ok.1 hx
    simp only at hx
    split at hx
    · next p s h' =>
        obtain ⟨⟨exponent, u', hu⟩, hex, hx⟩ := bind_eq_ok.1 hx
        cases hx
        exact .inr ⟨base, p, s, exponent, ⟨h', hb⟩, ⟨hu, hex⟩, rfl⟩
    · next hpow =>
        cases hx
        refine .inl ⟨⟨hr, hb⟩, ?_⟩
        rw [ne_eq, joint_eq_binary]
        rintro ⟨op, p, s, hop, rfl⟩
        cases op <;> cases hop
        exact hpow p s _ rfl HEq.rfl
  · rintro (⟨⟨hr, hb⟩, hj⟩ | ⟨base, p, s, exponent, ⟨hr, hb⟩, ⟨hu, hex⟩, rfl⟩)
    · rw [ne_eq, joint_eq_binary] at hj
      simp only [hb, bind, Except.bind]
      split
      · next p s h' => exact absurd ⟨.pow, p, s, rfl, rfl⟩ hj
      · exact ⟨hr, rfl⟩
    · simp only [hb, hex, bind, Except.bind]
      exact ⟨by simp only [List.length_cons] at hr; omega, rfl⟩

/-- What an operator in front makes of its operand. -/
def prefixed {τ : Type} : TokenKind τ → Option (Expr → Expr)
  | .operator .bang => some .not
  | .operator (.binary .sub) => some (.unary .minus)
  | .operator (.binary .add) => some (.unary .plus)
  | .keyword .typeof => some .typeof
  | .keyword .void => some (.unary .void)
  | _ => none

/-- An operand stands behind operators of its own, or there are none. -/
theorem unary_iff {e : Expr} {s : List Item} :
    Reads (unary stop ts) e s
      ↔ (∃ k p r make x, ts = ⟨k, p⟩ :: r ∧ prefixed k = some make
          ∧ Reads (unary stop r) x s ∧ e = make x)
        ∨ ((∀ k p r, ts = ⟨k, p⟩ :: r → prefixed k = none) ∧ Reads (access stop ts) e s) := by
  constructor
  · rintro ⟨h, hx⟩
    unfold unary at hx
    split at hx
    case h_6 hbang hsub hadd htypeof hvoid =>
      refine .inr ⟨?_, h, hx⟩
      rintro k p r rfl
      unfold prefixed
      split
      · exact absurd rfl (hbang p r)
      · exact absurd rfl (hsub p r)
      · exact absurd rfl (hadd p r)
      · exact absurd rfl (htypeof p r)
      · exact absurd rfl (hvoid p r)
      · rfl
    all_goals
      next p r =>
        obtain ⟨⟨x, s', hs⟩, hu, hx⟩ := bind_eq_ok.1 hx
        cases hx
        exact .inl ⟨_, p, r, _, x, rfl, rfl, ⟨hs, hu⟩, rfl⟩
  · rintro (⟨k, p, r, make, x, rfl, hk, ⟨hs, hu⟩, rfl⟩ | ⟨hnone, hs, ha⟩)
    · unfold prefixed at hk
      split at hk
      case h_6 => cases hk
      all_goals
        cases hk
        rw [unary]
        simp only [hu, bind, Except.bind]
        exact ⟨by simp only [List.length_cons]; omega, rfl⟩
    · rw [unary]
      · exact ⟨hs, ha⟩
      all_goals
        rintro p r rfl
        cases hnone _ _ _ rfl

-- ============================================================= access

/-- One more read, call or assertion on a receiver. -/
inductive AccessStep (stop : Nat) (receiver : Expr) :
    List Item → Expr → List Item → Prop where
  | property {p : Nat} {t : Item} {r : List Item} {name : Text} (hn : nameOf? t = some name) :
      AccessStep stop receiver (⟨.mark .dot, p⟩ :: t :: r) (.property receiver name) r
  | safeProperty {p : Nat} {t : Item} {r : List Item} {name : Text}
      (hn : nameOf? t = some name) :
      AccessStep stop receiver (⟨.operator .optional, p⟩ :: t :: r)
        (.safeProperty receiver name) r
  | index {p : Nat} {r s : List Item} {key : Expr} (hk : Reads (keyTail stop r) key s) :
      AccessStep stop receiver (⟨.mark .openBracket, p⟩ :: r) (.index receiver key) s
  | safeIndex {p q : Nat} {r s : List Item} {key : Expr} (hk : Reads (keyTail stop r) key s) :
      AccessStep stop receiver (⟨.operator .optional, p⟩ :: ⟨.mark .openBracket, q⟩ :: r)
        (.safeIndex receiver key) s
  | call {p : Nat} {r s : List Item} {args : List Expr}
      (ha : Reads (sequence stop .closeParen r) args s) :
      AccessStep stop receiver (⟨.mark .openParen, p⟩ :: r) (.call receiver args) s
  | safeCall {p q : Nat} {r s : List Item} {args : List Expr}
      (ha : Reads (sequence stop .closeParen r) args s) :
      AccessStep stop receiver (⟨.operator .optional, p⟩ :: ⟨.mark .openParen, q⟩ :: r)
        (.safeCall receiver args) s
  | assertion {p : Nat} {r : List Item} :
      AccessStep stop receiver (⟨.operator .bang, p⟩ :: r) (.assertion receiver) r

/-- A primary expression and what is read from it. -/
theorem access_iff {e : Expr} {s : List Item} :
    Reads (access stop ts) e s
      ↔ ∃ receiver r, Reads (primary stop ts) receiver r
        ∧ Trails (accessTail stop receiver r) e s := by
  rw [access]
  constructor
  · rintro ⟨h, hx⟩
    obtain ⟨⟨receiver, r, hr⟩, hp, hx⟩ := bind_eq_ok.1 hx
    obtain ⟨⟨e', s', hs⟩, ht, hx⟩ := bind_eq_ok.1 hx
    cases hx
    exact ⟨receiver, r, ⟨hr, hp⟩, hs, ht⟩
  · rintro ⟨receiver, r, ⟨hr, hp⟩, hs, ht⟩
    simp only [hp, ht, bind, Except.bind]
    exact ⟨by omega, rfl⟩

/-- Nothing more is read from a receiver before a token that begins no
read, call or assertion. -/
theorem accessTail_iff {receiver e : Expr} {u : List Item} :
    Trails (accessTail stop receiver ts) e u
      ↔ (joint ts ≠ some .access ∧ e = receiver ∧ u = ts)
        ∨ ∃ x s, AccessStep stop receiver ts x s ∧ Trails (accessTail stop x s) e u := by
  constructor
  · rintro ⟨h, hx⟩
    unfold accessTail at hx
    split at hx
    · split at hx
      · next name hn =>
          obtain ⟨⟨e', s, hs⟩, he, hx⟩ := bind_eq_ok.1 hx
          cases hx
          exact .inr ⟨_, _, .property hn, hs, he⟩
      · cases hx
    · cases hx
    · obtain ⟨⟨key, s, hs⟩, hk, hx⟩ := bind_eq_ok.1 hx
      obtain ⟨⟨e', u', hu⟩, he, hx⟩ := bind_eq_ok.1 hx
      cases hx
      exact .inr ⟨_, s, .safeIndex ⟨hs, hk⟩, hu, he⟩
    · obtain ⟨⟨args, s, hs⟩, ha, hx⟩ := bind_eq_ok.1 hx
      obtain ⟨⟨e', u', hu⟩, he, hx⟩ := bind_eq_ok.1 hx
      cases hx
      exact .inr ⟨_, s, .safeCall ⟨hs, ha⟩, hu, he⟩
    · split at hx
      · next name hn =>
          obtain ⟨⟨e', s, hs⟩, he, hx⟩ := bind_eq_ok.1 hx
          cases hx
          exact .inr ⟨_, _, .safeProperty hn, hs, he⟩
      · cases hx
    · cases hx
    · obtain ⟨⟨key, s, hs⟩, hk, hx⟩ := bind_eq_ok.1 hx
      obtain ⟨⟨e', u', hu⟩, he, hx⟩ := bind_eq_ok.1 hx
      cases hx
      exact .inr ⟨_, s, .index ⟨hs, hk⟩, hu, he⟩
    · obtain ⟨⟨args, s, hs⟩, ha, hx⟩ := bind_eq_ok.1 hx
      obtain ⟨⟨e', u', hu⟩, he, hx⟩ := bind_eq_ok.1 hx
      cases hx
      exact .inr ⟨_, s, .call ⟨hs, ha⟩, hu, he⟩
    · obtain ⟨⟨e', s, hs⟩, he, hx⟩ := bind_eq_ok.1 hx
      cases hx
      exact .inr ⟨_, _, .assertion, hs, he⟩
    · -- no other case is left, so no token that joins an access stands in front
      next hdot hdotEnd _ _ hopt hoptEnd hbracket hparen hbang =>
        cases hx
        refine .inl ⟨?_, rfl, rfl⟩
        intro hj
        obtain ⟨k, p, r, hk, rfl⟩ := exists_joins_of_joint hj
        rcases joins_eq_some hk with
          ⟨-, rfl | rfl | rfl | rfl | rfl⟩ | ⟨op, hs, -⟩ | ⟨hs, -⟩ | ⟨hs, -⟩
        · cases r with
          | nil => exact hdotEnd p rfl
          | cons t r => exact hdot p t r rfl
        · exact hbracket p r rfl
        · exact hparen p r rfl
        · cases r with
          | nil => exact hoptEnd p rfl
          | cons t r => exact hopt p t r rfl
        · exact hbang p r rfl
        · cases hs
        · cases hs
        · cases hs
  · rintro (⟨hj, rfl, rfl⟩ | ⟨x, s, hs, hu, he⟩)
    · rw [accessTail]
      · exact ⟨Nat.le_refl _, rfl⟩
      -- the equation of the last case asks that none of the others apply
      all_goals
        intros
        subst_vars
        exact hj rfl
    · cases hs with
      | property hn =>
          rw [accessTail]
          simp only [hn, he, bind, Except.bind]
          exact ⟨by simp only [List.length_cons]; omega, rfl⟩
      | @safeProperty p t r name hn =>
          obtain ⟨k, q⟩ := t
          rw [accessTail]
          · simp only [hn, he, bind, Except.bind]
            exact ⟨by simp only [List.length_cons]; omega, rfl⟩
          · rintro q' ⟨⟩
            cases hn
          · rintro q' ⟨⟩
            cases hn
      | index hk =>
          obtain ⟨hs, hk⟩ := hk
          rw [accessTail]
          simp only [hk, he, bind, Except.bind]
          exact ⟨by simp only [List.length_cons]; omega, rfl⟩
      | safeIndex hk =>
          obtain ⟨hs, hk⟩ := hk
          rw [accessTail]
          simp only [hk, he, bind, Except.bind]
          exact ⟨by simp only [List.length_cons]; omega, rfl⟩
      | call ha =>
          obtain ⟨hs, ha⟩ := ha
          rw [accessTail]
          simp only [ha, he, bind, Except.bind]
          exact ⟨by simp only [List.length_cons]; omega, rfl⟩
      | safeCall ha =>
          obtain ⟨hs, ha⟩ := ha
          rw [accessTail]
          simp only [ha, he, bind, Except.bind]
          exact ⟨by simp only [List.length_cons]; omega, rfl⟩
      | assertion =>
          rw [accessTail]
          simp only [he, bind, Except.bind]
          exact ⟨by simp only [List.length_cons]; omega, rfl⟩

/-- A key ends at its bracket. -/
theorem keyTail_iff {key : Expr} {s : List Item} :
    Reads (keyTail stop ts) key s
      ↔ ∃ p, Reads (pipe stop ts) key (⟨.mark .closeBracket, p⟩ :: s) := by
  rw [keyTail]
  constructor
  · rintro ⟨h, hx⟩
    obtain ⟨⟨key', r, hr⟩, hk, hx⟩ := bind_eq_ok.1 hx
    simp only at hx
    split at hx
    · next p s' h' =>
        cases hx
        exact ⟨p, h', hk⟩
    · cases hx
  · rintro ⟨p, h, hk⟩
    simp only [hk, bind, Except.bind]
    exact ⟨Nat.lt_of_succ_lt h, rfl⟩

-- ============================================================ primary

/-- The expression that a token is by itself. -/
def atom {τ : Type} : TokenKind τ → Option Expr
  | .keyword .null => some (.literal .null)
  | .keyword .undefined => some (.literal .undefined)
  | .keyword .true => some (.literal (.bool true))
  | .keyword .false => some (.literal (.bool false))
  | .keyword .this => some .this
  | .text value => some (.literal (.text value))
  | .number value => some (.literal (.number value))
  | .name n => some (.property .context n)
  | _ => none

/-- A primary expression: a token by itself, a backtick literal, a group,
an array or a map. -/
theorem primary_iff {e : Expr} {u : List Item} :
    Reads (primary stop ts) e u
      ↔ ∃ k p r, ts = ⟨k, p⟩ :: r ∧
        ((atom k = some e ∧ u = r)
          ∨ (∃ b, k = .template b ∧ b.outcome = .ok e ∧ u = r)
          ∨ (∃ q, k = .mark .openParen ∧ Reads (pipe stop r) e (⟨.mark .closeParen, q⟩ :: u))
          ∨ (∃ es, k = .mark .openBracket ∧ Reads (sequence stop .closeBracket r) es u
              ∧ e = .array es)
          ∨ (∃ keys values, k = .mark .openBrace ∧ Reads (mapBody stop r) (keys, values) u
              ∧ e = .map keys values)) := by
  constructor
  · rintro ⟨h, hx⟩
    unfold primary at hx
    split at hx
    · cases hx
    · next t r =>
        obtain ⟨k, p⟩ := t
        refine ⟨k, p, r, rfl, ?_⟩
        simp only at hx
        split at hx
        case h_1 =>
          obtain ⟨⟨e', s, hs⟩, hp, hx⟩ := bind_eq_ok.1 hx
          simp only at hx
          split at hx
          · next q u' h' =>
              cases hx
              exact .inr (.inr (.inl ⟨q, rfl, h', hp⟩))
          · cases hx
        case h_10 b =>
          obtain ⟨e', hb, hx⟩ := bind_eq_ok.1 hx
          cases hx
          exact .inr (.inl ⟨b, rfl, hb, rfl⟩)
        case h_11 =>
          obtain ⟨⟨es, s, hs⟩, hes, hx⟩ := bind_eq_ok.1 hx
          cases hx
          exact .inr (.inr (.inr (.inl ⟨es, rfl, ⟨hs, hes⟩, rfl⟩)))
        case h_12 =>
          obtain ⟨⟨⟨keys, values⟩, s, hs⟩, hm, hx⟩ := bind_eq_ok.1 hx
          cases hx
          exact .inr (.inr (.inr (.inr ⟨keys, values, rfl, ⟨hs, hm⟩, rfl⟩)))
        all_goals
          cases hx
          try exact .inl ⟨rfl, rfl⟩
  · rintro ⟨k, p, r, rfl, hk⟩
    rcases hk with ⟨hk, rfl⟩ | ⟨b, rfl, hb, rfl⟩ | ⟨q, rfl, hs, hp⟩ | ⟨es, rfl, ⟨hs, hes⟩, rfl⟩
      | ⟨keys, values, rfl, ⟨hs, hm⟩, rfl⟩
    · unfold atom at hk
      split at hk
      case h_9 => cases hk
      all_goals
        cases hk
        rw [primary]
        exact ⟨by simp, rfl⟩
    · rw [primary]
      simp only [hb, bind, Except.bind]
      exact ⟨by simp, rfl⟩
    · rw [primary]
      simp only [hp, bind, Except.bind]
      exact ⟨by simp only [List.length_cons] at hs ⊢; omega, rfl⟩
    · rw [primary]
      simp only [hes, bind, Except.bind]
      exact ⟨by simp only [List.length_cons]; omega, rfl⟩
    · rw [primary]
      simp only [hm, bind, Except.bind]
      exact ⟨by simp only [List.length_cons]; omega, rfl⟩

-- ========================================================== sequences

/-- A sequence is the closing mark alone, or at least one item. -/
theorem sequence_iff {closer : Mark} {es : List Expr} {u : List Item} :
    Reads (sequence stop closer ts) es u
      ↔ (∃ p, ts = ⟨.mark closer, p⟩ :: u ∧ es = [])
        ∨ ((∀ p r, ts ≠ ⟨.mark closer, p⟩ :: r) ∧ Reads (items stop closer ts) es u) := by
  constructor
  · rintro ⟨h, hx⟩
    unfold sequence at hx
    split at hx
    · next m p r =>
        split at hx
        · next hm =>
            cases hx
            exact .inl ⟨p, by rw [hm], rfl⟩
        · next hm =>
            refine .inr ⟨?_, h, hx⟩
            rintro q s ⟨⟩
            exact hm rfl
    · next hmark =>
        exact .inr ⟨fun p r => hmark closer p r, h, hx⟩
  · rintro (⟨p, rfl, rfl⟩ | ⟨hclose, h, hx⟩)
    · rw [sequence, if_pos rfl]
      exact ⟨by simp, rfl⟩
    · unfold sequence
      split
      · next m p r =>
          rw [if_neg fun hm => hclose p r (by rw [hm])]
          exact ⟨h, hx⟩
      · exact ⟨h, hx⟩

/-- Items go on after a comma and end at the closing mark. -/
theorem items_iff {closer : Mark} {es : List Expr} {u : List Item} (hc : closer ≠ .comma) :
    Reads (items stop closer ts) es u
      ↔ (∃ e p s es', Reads (pipe stop ts) e (⟨.mark .comma, p⟩ :: s)
          ∧ Reads (items stop closer s) es' u ∧ es = e :: es')
        ∨ ∃ e p, Reads (pipe stop ts) e (⟨.mark closer, p⟩ :: u) ∧ es = [e] := by
  rw [items]
  constructor
  · rintro ⟨h, hx⟩
    obtain ⟨⟨e, r, hr⟩, he, hx⟩ := bind_eq_ok.1 hx
    simp only at hx
    split at hx
    · next m p s h' =>
        split at hx
        · next hm =>
            subst hm
            obtain ⟨⟨es', u', hu⟩, hes, hx⟩ := bind_eq_ok.1 hx
            cases hx
            exact .inl ⟨e, p, s, es', ⟨h', he⟩, ⟨hu, hes⟩, rfl⟩
        · split at hx
          · next hm =>
              cases hx
              subst hm
              exact .inr ⟨e, p, ⟨h', he⟩, rfl⟩
          · cases hx
    · cases hx
  · rintro (⟨e, p, s, es', ⟨h, he⟩, ⟨hu, hes⟩, rfl⟩ | ⟨e, p, ⟨h, he⟩, rfl⟩)
    · simp only [he, hes, bind, Except.bind, if_pos]
      exact ⟨by simp only [List.length_cons] at h; omega, rfl⟩
    · simp only [he, bind, Except.bind, if_neg hc, if_pos]
      exact ⟨Nat.lt_of_succ_lt h, rfl⟩

-- =============================================================== maps

/-- The body of a map is the closing brace alone, or at least one
entry. -/
theorem mapBody_iff {m : List MapKey × List Expr} {u : List Item} :
    Reads (mapBody stop ts) m u
      ↔ (∃ p, ts = ⟨.mark .closeBrace, p⟩ :: u ∧ m = ([], []))
        ∨ ((∀ p r, ts ≠ ⟨.mark .closeBrace, p⟩ :: r) ∧ Reads (entries stop ts) m u) := by
  constructor
  · rintro ⟨h, hx⟩
    unfold mapBody at hx
    split at hx
    · next p r =>
        cases hx
        exact .inl ⟨p, rfl, rfl⟩
    · next hclose => exact .inr ⟨hclose, h, hx⟩
  · rintro (⟨p, rfl, rfl⟩ | ⟨hclose, h, hx⟩)
    · rw [mapBody]
      exact ⟨by simp, rfl⟩
    · rw [mapBody]
      · exact ⟨h, hx⟩
      · exact hclose

/-- Entries go on after a comma and end at the closing brace. -/
theorem entries_iff {m : List MapKey × List Expr} {u : List Item} :
    Reads (entries stop ts) m u
      ↔ ∃ t r key value, ts = t :: r ∧ mapKeyOf? t = some key ∧
        ((∃ p s more, Trails (entryValue stop key r) value (⟨.mark .comma, p⟩ :: s)
            ∧ Reads (entries stop s) more u ∧ m = (key :: more.1, value :: more.2))
          ∨ ∃ p, Trails (entryValue stop key r) value (⟨.mark .closeBrace, p⟩ :: u)
            ∧ m = ([key], [value])) := by
  constructor
  · rintro ⟨h, hx⟩
    unfold entries at hx
    split at hx
    · cases hx
    · next t r =>
        split at hx
        · cases hx
        · next key hk =>
            obtain ⟨⟨value, s, hs⟩, hv, hx⟩ := bind_eq_ok.1 hx
            refine ⟨t, r, key, value, rfl, hk, ?_⟩
            simp only at hx
            split at hx
            · next p s' h' =>
                obtain ⟨⟨more, v, hv'⟩, hm, hx⟩ := bind_eq_ok.1 hx
                cases hx
                exact .inl ⟨p, s', more, ⟨h', hv⟩, ⟨hv', hm⟩, rfl⟩
            · next p s' h' =>
                cases hx
                exact .inr ⟨p, ⟨h', hv⟩, rfl⟩
            · cases hx
  · rintro ⟨t, r, key, value, rfl, hk, ⟨p, s, more, ⟨h, hv⟩, ⟨hu, hm⟩, rfl⟩ | ⟨p, ⟨h, hv⟩, rfl⟩⟩
    · rw [entries]
      simp only [hk, hv, hm, bind, Except.bind]
      exact ⟨by simp only [List.length_cons] at h ⊢; omega, rfl⟩
    · rw [entries]
      simp only [hk, hv, bind, Except.bind]
      exact ⟨by simp only [List.length_cons] at h ⊢; omega, rfl⟩

/-- An entry has a value after a colon; a bare name without one reads the
property of that name. -/
theorem entryValue_iff {key : MapKey} {e : Expr} {s : List Item} :
    Trails (entryValue stop key ts) e s
      ↔ (∃ p r, ts = ⟨.mark .colon, p⟩ :: r ∧ Reads (pipe stop r) e s)
        ∨ ((∀ p r, ts ≠ ⟨.mark .colon, p⟩ :: r) ∧ key.quoted = false
          ∧ e = .property .context key.name ∧ s = ts) := by
  constructor
  · rintro ⟨h, hx⟩
    unfold entryValue at hx
    split at hx
    · next p r =>
        obtain ⟨⟨e', s', hs⟩, he, hx⟩ := bind_eq_ok.1 hx
        cases hx
        exact .inl ⟨p, r, rfl, hs, he⟩
    · next hcolon =>
        split at hx
        · cases hx
        · next hq =>
            cases hx
            exact .inr ⟨hcolon, by simpa using hq, rfl, rfl⟩
  · rintro (⟨p, r, rfl, hs, he⟩ | ⟨hcolon, hq, rfl, rfl⟩)
    · rw [entryValue]
      simp only [he, bind, Except.bind]
      exact ⟨by simp only [List.length_cons]; omega, rfl⟩
    · rw [entryValue]
      · rw [hq]
        exact ⟨Nat.le_refl _, rfl⟩
      · exact hcolon

-- ============================================================== wholes

/-- A whole token list is an expression when nothing is left of it. -/
theorem whole_eq_ok {e : Expr} :
    whole stop ts = .ok e ↔ (ts = [] ∧ e = .empty) ∨ Reads (pipe stop ts) e [] := by
  constructor
  · intro hx
    unfold whole at hx
    split at hx
    · cases hx
      exact .inl ⟨rfl, rfl⟩
    · obtain ⟨⟨e', s, hs⟩, hp, hx⟩ := bind_eq_ok.1 hx
      simp only at hx
      split at hx
      · cases hx
        exact .inr ⟨hs, hp⟩
      · cases hx
  · rintro (⟨rfl, rfl⟩ | ⟨h, hp⟩)
    · rfl
    · unfold whole
      split
      · simp at h
      · simp only [hp, bind, Except.bind]
        rfl

end KeyHarvest.Grammar
