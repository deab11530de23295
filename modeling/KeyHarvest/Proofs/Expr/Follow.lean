/-
What may follow an expression. The grammar takes operators greedily, so
what tokens are read as depends on those that come after them. Here this
is said once, for all symbols, and by the kinds of tokens alone.

A symbol goes on at some tokens and stops at others. `Follows s e rs v ss`
holds when, after the tree `e` has been read as the symbol `s`, the tokens
`rs` lead to the tree `v` and leave `ss`. For a symbol that is a loop this
is what the loop does from `e`, so tokens can be extended on their right by
as many turns as there are; the left-associative levels need just that.
For the other symbols `rs` only has to begin with nothing tighter.

`Yields s e ks` says that the tokens `ks` stand for `e` as the symbol `s`,
whatever follows. From a symbol this passes to the next looser one
(`Yields.step`), and so to all looser ones (`Yields.loosen`). A choice
takes everything to its right into its last branch and is never extended,
so its statement is weaker (`Ends`).
-/
import KeyHarvest.Proofs.Expr.Printer
import KeyHarvest.Proofs.Expr.Soundness

namespace KeyHarvest.Grammar

variable {α β γ : Type} {stop : Nat} {ks rs ss : List (TokenKind Text)}

-- ==================================================== reading by kinds

/-- All items that have the tokens `ks` lead to the value `v`, and leave
items that have the tokens `rs`. -/
def Parses (P : List Item → α → List Item → Prop) (ks : List (TokenKind Text)) (v : α)
    (rs : List (TokenKind Text)) : Prop :=
  ∀ ts, plain ts = ks → ∃ r, plain r = rs ∧ P ts v r

/-- What leads on from one value leads on from the other. -/
theorem Parses.bind {P : List Item → α → List Item → Prop} {Q : List Item → β → List Item → Prop}
    {R : List Item → γ → List Item → Prop} {a : α} {b : β} {c : γ}
    (h : ∀ ts r s, P ts a r → Q r b s → R ts c s) (hp : Parses P ks a rs) (hq : Parses Q rs b ss) :
    Parses R ks c ss := by
  intro ts hts
  obtain ⟨r, hr, hpr⟩ := hp ts hts
  obtain ⟨s, hs, hqs⟩ := hq r hr
  exact ⟨s, hs, h ts r s hpr hqs⟩

theorem Parses.imp {P : List Item → α → List Item → Prop} {R : List Item → β → List Item → Prop}
    {a : α} {b : β} (h : ∀ ts r, plain r = rs → P ts a r → R ts b r) (hp : Parses P ks a rs) :
    Parses R ks b rs := by
  intro ts hts
  obtain ⟨r, hr, hpr⟩ := hp ts hts
  exact ⟨r, hr, h ts r hr hpr⟩

theorem plain_eq_cons {ts : List Item} {k : TokenKind Text} (h : plain ts = k :: ks) :
    ∃ k' p s, ts = ⟨k', p⟩ :: s ∧ k'.map Backtick.body = k ∧ plain s = ks := by
  cases ts with
  | nil => cases h
  | cons t s =>
      cases h
      exact ⟨t.kind, t.position, s, rfl, rfl, rfl⟩

/-- Items whose tokens begin with a mark begin with that mark. -/
theorem plain_eq_mark {ts : List Item} {m : Mark} (h : plain ts = .mark m :: ks) :
    ∃ p s, ts = ⟨.mark m, p⟩ :: s ∧ plain s = ks := by
  obtain ⟨k, p, s, rfl, hk, hs⟩ := plain_eq_cons h
  cases k <;> cases hk
  exact ⟨p, s, rfl, hs⟩

/-- Items whose tokens begin with an operator begin with that operator. -/
theorem plain_eq_operator {ts : List Item} {op : Operator} (h : plain ts = .operator op :: ks) :
    ∃ p s, ts = ⟨.operator op, p⟩ :: s ∧ plain s = ks := by
  obtain ⟨k, p, s, rfl, hk, hs⟩ := plain_eq_cons h
  cases k <;> cases hk
  exact ⟨p, s, rfl, hs⟩

/-- The reserved word of a name is spelled like the name. -/
theorem spelling_of_ofName? {n : Text} {word : Keyword} (h : Keyword.ofName? n = some word) :
    word.spelling = n := by
  have hfound := List.find?_some h
  simpa using hfound

/-- The token of a name is read as that name. -/
theorem plain_eq_nameToken {ts : List Item} {n : Text} (h : plain ts = nameToken n :: ks) :
    ∃ t s, ts = t :: s ∧ nameOf? t = some n ∧ plain s = ks := by
  obtain ⟨k, p, s, rfl, hk, hs⟩ := plain_eq_cons h
  refine ⟨⟨k, p⟩, s, rfl, ?_, hs⟩
  unfold nameToken at hk
  split at hk
  · next word hword =>
      cases k <;> cases hk
      exact congrArg some (spelling_of_ofName? hword)
  · cases k <;> cases hk
    rfl

/-- The token of a map key is read as that key. -/
theorem plain_eq_keyToken {ts : List Item} {key : MapKey} (h : plain ts = key.token :: ks) :
    ∃ t s, ts = t :: s ∧ mapKeyOf? t = some key ∧ plain s = ks := by
  obtain ⟨name, quoted⟩ := key
  cases quoted with
  | true =>
      obtain ⟨k, p, s, rfl, hk, hs⟩ := plain_eq_cons h
      cases k <;> cases hk
      exact ⟨_, s, rfl, rfl, hs⟩
  | false =>
      obtain ⟨t, s, rfl, ht, hs⟩ := plain_eq_nameToken h
      refine ⟨t, s, rfl, ?_, hs⟩
      obtain ⟨k, p⟩ := t
      cases k <;> cases ht
      · rfl
      · rfl

-- ============================================================== stops

/-- The symbol that goes on at the next token. -/
def next : List (TokenKind Text) → Option Symbol
  | [] => none
  | k :: _ => joins k

/-- At most symbols looser than `s` go on at the next token. -/
def Stops (s : Symbol) (rs : List (TokenKind Text)) : Prop :=
  ∀ t, next rs = some t → s.rank < t.rank

/-- The next token is no colon. -/
def NoColon (rs : List (TokenKind Text)) : Prop := ∀ ss, rs ≠ .mark .colon :: ss

/-- The symbol that joins items is that of their tokens. -/
theorem joint_eq_next (ts : List Item) : joint ts = next (plain ts) := by
  cases ts with
  | nil => rfl
  | cons t s =>
      obtain ⟨k, p⟩ := t
      show joins k = joins (k.map Backtick.body)
      cases k with
      | operator op => cases op <;> rfl
      | mark m => cases m <;> rfl
      | _ => rfl

/-- What stops a symbol stops the tighter ones. -/
theorem Stops.mono {s t : Symbol} (h : Stops t rs) (hst : s.rank ≤ t.rank) : Stops s rs :=
  fun u hu => Nat.lt_of_le_of_lt hst (h u hu)

/-- A symbol that is stopped does not join the next items. -/
theorem Stops.joint_ne {s t : Symbol} (h : Stops t rs) (hst : s.rank ≤ t.rank) {ts : List Item}
    (hts : plain ts = rs) : joint ts ≠ some s := by
  intro hj
  rw [joint_eq_next, hts] at hj
  exact Nat.lt_irrefl _ (Nat.lt_of_lt_of_le (h s hj) hst)

theorem stops_nil (s : Symbol) : Stops s [] := nofun

/-- Only looser symbols go on at a token that joins one. -/
theorem stops_of_joins {s t : Symbol} {k : TokenKind Text} (hk : joins k = some t)
    (hst : s.rank < t.rank) : Stops s (k :: rs) := by
  intro u hu
  rw [show next (k :: rs) = some t from hk] at hu
  cases hu
  exact hst

/-- Everything stops at a token that joins nothing. -/
theorem stops_of_joins_none {s : Symbol} {k : TokenKind Text} (hk : joins k = none) :
    Stops s (k :: rs) := by
  intro u hu
  rw [show next (k :: rs) = none from hk] at hu
  cases hu

theorem noColon_cons {k : TokenKind Text} (hk : k ≠ .mark .colon) : NoColon (k :: rs) := by
  intro ss h
  cases h
  exact hk rfl

-- ============================================================ follows

/-- What the tokens after a tree lead to, when the tree has been read as a
symbol. -/
def Follows (stop : Nat) (s : Symbol) (e : Expr) (rs : List (TokenKind Text)) (v : Expr)
    (ss : List (TokenKind Text)) : Prop :=
  match s with
  | .primary => v = e ∧ ss = rs
  | .access => Parses (fun ts => Trails (accessTail stop e ts)) rs v ss
  | .unary => v = e ∧ ss = rs ∧ Stops .access rs
  | .binary 0 => v = e ∧ ss = rs ∧ Stops (.binary 0) rs
  | .binary (n + 1) =>
      Parses (fun ts => Trails (binaryTail stop n e ts)) rs v ss ∧ Stops (.binary n) rs
  | .cond => v = e ∧ ss = rs ∧ Stops .cond rs
  | .pipe =>
      Parses (fun ts => Trails (pipeTail stop e ts)) rs v ss ∧ Stops .cond rs ∧ NoColon rs

/-- Tokens that stand for a tree as a symbol. -/
def Yields (stop : Nat) (s : Symbol) (e : Expr) (ks : List (TokenKind Text)) : Prop :=
  ∀ rs v ss, Follows stop s e rs v ss → Parses (fun ts => Reads (read stop s ts)) (ks ++ rs) v ss

/-- Tokens that stand for a tree as a choice, where nothing goes on. -/
def Ends (stop : Nat) (e : Expr) (ks : List (TokenKind Text)) : Prop :=
  ∀ rs, Stops .pipe rs → Parses (fun ts => Reads (cond stop ts)) (ks ++ rs) e rs

/-- Where accesses stop, a receiver is left as it is. -/
theorem accessTail_of_stops {e : Expr} (h : Stops .access rs) :
    Parses (fun ts => Trails (accessTail stop e ts)) rs e rs := by
  intro ts hts
  exact ⟨ts, hts, accessTail_iff.2 (.inl ⟨h.joint_ne (Nat.le_refl _) hts, rfl, rfl⟩)⟩

/-- Where the operators of a level stop, a left side is left as it is. -/
theorem binaryTail_of_stops {n : Nat} {e : Expr} (h : Stops (.binary (n + 1)) rs) :
    Parses (fun ts => Trails (binaryTail stop n e ts)) rs e rs := by
  intro ts hts
  exact ⟨ts, hts, binaryTail_iff.2 (.inl ⟨h.joint_ne (Nat.le_refl _) hts, rfl, rfl⟩)⟩

/-- Where pipes stop, an input is left as it is. -/
theorem pipeTail_of_stops {e : Expr} (h : Stops .pipe rs) :
    Parses (fun ts => Trails (pipeTail stop e ts)) rs e rs := by
  intro ts hts
  exact ⟨ts, hts, pipeTail_iff.2 (.inl ⟨h.joint_ne (Nat.le_refl _) hts, rfl, rfl⟩)⟩

/-- Where a symbol is stopped, a tree stays what it is. -/
theorem follows_of_stops {s : Symbol} {e : Expr} (h : Stops s rs) (hc : s = .pipe → NoColon rs) :
    Follows stop s e rs e rs := by
  cases s with
  | primary => exact ⟨rfl, rfl⟩
  | access => exact accessTail_of_stops h
  | unary => exact ⟨rfl, rfl, h.mono (by decide)⟩
  | binary n =>
      cases n with
      | zero => exact ⟨rfl, rfl, h⟩
      | succ n => exact ⟨binaryTail_of_stops h, h.mono (Nat.le_succ _)⟩
  | cond => exact ⟨rfl, rfl, h⟩
  | pipe => exact ⟨pipeTail_of_stops h, h.mono (by decide), hc rfl⟩

/-- Where a symbol tighter than pipes is stopped, its tokens are read up
to there. -/
theorem Yields.parses {s : Symbol} {e : Expr} (h : Yields stop s e ks) (hs : s ≠ .pipe)
    (hr : Stops s rs) : Parses (fun ts => Reads (read stop s ts)) (ks ++ rs) e rs :=
  h rs e rs (follows_of_stops hr fun hp => absurd hp hs)

-- ============================================================= looser

/-- What is read as a primary is read as an access without parts. -/
theorem Yields.access {e : Expr} (h : Yields stop .primary e ks) : Yields stop .access e ks := by
  intro rs v ss hf
  refine Parses.bind ?_ (h rs e rs ⟨rfl, rfl⟩) hf
  intro ts r s hp ht
  exact access_iff.2 ⟨e, r, hp, ht⟩

/-- No operator in front begins a receiver. -/
theorem prefixed_eq_none_of_access {k : TokenKind Backtick} {p : Nat} {ts r : List Item} {e : Expr}
    (h : Reads (access stop (⟨k, p⟩ :: ts)) e r) : prefixed k = none := by
  obtain ⟨receiver, s, hp, -⟩ := access_iff.1 h
  obtain ⟨k', p', ts', heq, hcase⟩ := primary_iff.1 hp
  cases heq
  rcases hcase with ⟨hk, -⟩ | ⟨b, rfl, -⟩ | ⟨q, rfl, -⟩ | ⟨es, rfl, -⟩ | ⟨keys, values, rfl, -⟩
  · cases k with
    | operator op => cases hk
    | keyword word => cases word <;> first | rfl | cases hk
    | _ => rfl
  · rfl
  · rfl
  · rfl
  · rfl

/-- What is read as an access is read as a unary without signs. -/
theorem Yields.unary {e : Expr} (h : Yields stop .access e ks) : Yields stop .unary e ks := by
  intro rs v ss hf
  obtain ⟨rfl, rfl, hstop⟩ := hf
  refine Parses.imp ?_ (h _ _ _ (accessTail_of_stops hstop))
  intro ts r _ ha
  refine unary_iff.2 (.inr ⟨?_, ha⟩)
  intro k p s hts
  subst hts
  exact prefixed_eq_none_of_access ha

/-- What is read as a unary is read as a power without an exponent. -/
theorem Yields.power {e : Expr} (h : Yields stop .unary e ks) : Yields stop (.binary 0) e ks := by
  intro rs v ss hf
  obtain ⟨rfl, rfl, hstop⟩ := hf
  have hstop' := hstop.mono (s := .access) (by decide)
  refine Parses.imp ?_ (h _ _ _ ⟨rfl, rfl, hstop'⟩)
  intro ts r hr hu
  show Reads (binary stop 0 ts) _ r
  rw [binary_zero]
  exact power_iff.2 (.inl ⟨hu, hstop.joint_ne (Nat.le_refl _) hr⟩)

/-- What is read on a level is read on the next looser one. -/
theorem Yields.level {n : Nat} {e : Expr} (h : Yields stop (.binary n) e ks) :
    Yields stop (.binary (n + 1)) e ks := by
  intro rs v ss hf
  obtain ⟨htail, hstop⟩ := hf
  refine Parses.bind ?_ (h.parses nofun hstop) htail
  intro ts r s hl ht
  exact binary_succ_iff.2 ⟨e, r, hl, ht⟩

/-- What is read on the loosest level is read as a conditional without a
choice. -/
theorem Yields.cond {e : Expr} (h : Yields stop (.binary BinaryOp.loosest) e ks) :
    Yields stop .cond e ks := by
  intro rs v ss hf
  obtain ⟨rfl, rfl, hstop⟩ := hf
  refine Parses.imp ?_ (h.parses nofun (hstop.mono (by decide)))
  intro ts r hr hb
  exact cond_iff.2 (.inl ⟨hb, hstop.joint_ne (Nat.le_refl _) hr⟩)

/-- What is read as a conditional is read as a pipe without filters. -/
theorem Yields.pipe {e : Expr} (h : Yields stop .cond e ks) : Yields stop .pipe e ks := by
  intro rs v ss hf
  obtain ⟨htail, hstop, -⟩ := hf
  refine Parses.bind ?_ (h.parses nofun hstop) htail
  intro ts r s hc ht
  exact pipe_iff.2 ⟨e, r, hc, ht⟩

/-- The symbol of a rank. -/
def Symbol.ofRank : Nat → Symbol
  | 0 => .primary
  | 1 => .access
  | 2 => .unary
  | n + 3 =>
      if n ≤ BinaryOp.loosest then .binary n
      else if n = BinaryOp.loosest + 1 then .cond
      else .pipe

/-- The symbols of the grammar proper, where no level is looser than the
loosest. -/
def Symbol.Proper (s : Symbol) : Prop := ∀ n, s = .binary n → n ≤ BinaryOp.loosest

/-- A symbol is known by its rank. -/
theorem Symbol.ofRank_rank {s : Symbol} (h : s.Proper) : ofRank s.rank = s := by
  cases s with
  | binary n =>
      rw [rank, Nat.add_comm, ofRank, if_pos (h n rfl)]
  | _ => rfl

/-- Tokens that stand for a tree as a symbol do so as the next looser
one. -/
theorem Yields.step {n : Nat} {e : Expr} (h : Yields stop (.ofRank n) e ks) :
    Yields stop (.ofRank (n + 1)) e ks := by
  match n with
  | 0 => exact h.access
  | 1 => exact h.unary
  | 2 => exact h.power
  | n + 3 =>
      rw [Symbol.ofRank] at h ⊢
      by_cases hle : n + 1 ≤ BinaryOp.loosest
      · rw [if_pos (by omega)] at h
        rw [if_pos hle]
        exact h.level
      · rw [if_neg hle]
        by_cases hn : n = BinaryOp.loosest
        · subst hn
          rw [if_pos rfl]
          rw [if_pos (Nat.le_refl _)] at h
          exact h.cond
        · rw [if_neg (by omega)]
          rw [if_neg (by omega)] at h
          by_cases hn' : n = BinaryOp.loosest + 1
          · rw [if_pos hn'] at h
            exact h.pipe
          · rwa [if_neg hn'] at h

/-- Tokens that stand for a tree as a symbol do so as every looser one. -/
theorem Yields.loosen {s t : Symbol} {e : Expr} (h : Yields stop s e ks) (hs : s.Proper)
    (ht : t.Proper) (hle : s.rank ≤ t.rank) : Yields stop t e ks := by
  have hall : ∀ d, Yields stop (.ofRank (s.rank + d)) e ks := by
    intro d
    induction d with
    | zero =>
        rw [Nat.add_zero, Symbol.ofRank_rank hs]
        exact h
    | succ d ih => exact ih.step
  have hd := hall (t.rank - s.rank)
  rwa [Nat.add_sub_cancel' hle, Symbol.ofRank_rank ht] at hd

end KeyHarvest.Grammar
