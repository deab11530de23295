/-
From tokens to the items of the grammar. `Expr.parseAt` reads the bodies
of backtick literals while it turns tokens into items, and carries with
every one of them the proof that the recursion descends. Here the same
reading is written without those proofs: `Expr.toItem` is the item of one
token, and `parseAt_eq` says that a text is read by cutting it into tokens
and handing their items to the grammar.

`kindsOf` is the token list of a text without positions. Where a text
starts moves its tokens and changes nothing else (`kindsOf_eq_ok`).
-/
import KeyHarvest.Expr.Parse

namespace KeyHarvest

-- ============================================================== kinds

namespace TokenKind

variable {τ σ : Type}

/-- The same kind with another thing in the place of a backtick
literal. -/
def map (f : τ → σ) : TokenKind τ → TokenKind σ
  | .keyword word => .keyword word
  | .name n => .name n
  | .text value => .text value
  | .number value => .number value
  | .template b => .template (f b)
  | .operator op => .operator op
  | .mark m => .mark m

end TokenKind

/-- The tokens of a text without their positions. -/
def kindsOf (t : Text) : Except ExprError (List (TokenKind Text)) :=
  (tokenize 0 t).map (List.map Token.kind)

namespace Lexeme

/-- A piece gives the same token wherever it stands. -/
theorem token?_kind {l : Lexeme} {p : Nat} {o : Option (Token Text)} (h : l.token? p = .ok o)
    (q : Nat) : ∃ o', l.token? q = .ok o' ∧ o'.map Token.kind = o.map Token.kind := by
  unfold token? at h ⊢
  split at h
  · cases h
    exact ⟨_, rfl, rfl⟩
  · cases h
    exact ⟨_, rfl, rfl⟩
  · cases h
    exact ⟨_, rfl, rfl⟩
  · cases hn : numeral l.raw with
    | error e =>
        rw [hn] at h
        cases h
    | ok n =>
        rw [hn] at h
        cases h
        exact ⟨_, rfl, rfl⟩
  · split at h
    · cases h
      exact ⟨_, rfl, rfl⟩
    · cases h
      exact ⟨_, rfl, rfl⟩
  · cases h
    exact ⟨_, rfl, rfl⟩
  · cases h
    exact ⟨_, rfl, rfl⟩
  · split at h
    · split at h
      · cases h
      · cases h
    · cases h
      exact ⟨_, rfl, rfl⟩

/-- Pieces give the same tokens wherever the first of them stands. -/
theorem tokens_kinds {ls : List Lexeme} {p : Nat} {ts : List (Token Text)}
    (h : tokens p ls = .ok ts) (q : Nat) :
    ∃ us, tokens q ls = .ok us ∧ us.map Token.kind = ts.map Token.kind := by
  induction ls generalizing p q ts with
  | nil =>
      cases h
      exact ⟨[], rfl, rfl⟩
  | cons l ls ih =>
      simp only [tokens, bind, Except.bind] at h ⊢
      split at h
      · cases h
      · next first hfirst =>
          split at h
          · cases h
          · next rest hrest =>
              cases h
              obtain ⟨first', hfirst', hk⟩ := token?_kind hfirst q
              obtain ⟨rest', hrest', hks⟩ := ih hrest (q + l.raw.length)
              rw [hfirst']
              simp only [hrest']
              refine ⟨first'.toList ++ rest', rfl, ?_⟩
              rw [List.map_append, List.map_append, hks, ← Option.toList_map,
                ← Option.toList_map, hk]

end Lexeme

/-- Where a text starts does not matter to the kinds of its tokens. -/
theorem kindsOf_eq_ok {start : Nat} {t : Text} {ts : List (Token Text)}
    (h : tokenize start t = .ok ts) : kindsOf t = .ok (ts.map Token.kind) := by
  obtain ⟨us, hus, hk⟩ := Lexeme.tokens_kinds h 0
  rw [kindsOf, show tokenize 0 t = .ok us from hus, ← hk]
  rfl

-- =============================================================== items

namespace Expr

/-- The expression of a backtick body whose first code point has the given
position. -/
def readBody (start : Nat) (raw : Text) : Except ExprError Expr := do
  let items ← (BacktickBody.split 0 raw).parts.mapM fun part =>
    parseAt (start + part.offset) part.code
  ofBody start (BacktickBody.split 0 raw) items

/-- A backtick literal at a position, with the outcome of reading it. -/
def toBacktick (position : Nat) (raw : Text) : Backtick := ⟨raw, readBody (position + 1) raw⟩

/-- The item of a token. -/
def toItem (t : Token Text) : Item := ⟨t.kind.map (toBacktick t.position), t.position⟩

/-- The parts of a body can be read without the proofs that they are
parts. -/
theorem mapM_attach_parts (start : Nat) (parts : List Substitution) :
    (parts.attach.mapM fun x => parseAt (start + x.1.offset) x.1.code)
      = parts.mapM fun part => parseAt (start + part.offset) part.code := by
  have h := List.mapM_map (l := parts.attach) (f := Subtype.val)
    (g := fun part => parseAt (start + part.offset) part.code)
  rw [List.attach_map_subtype_val] at h
  exact h.symm

/-- A text is read through the items of its tokens. -/
theorem parseAt_eq (start : Nat) (t : Text) :
    parseAt start t
      = tokenize start t >>= fun ts => Grammar.whole (start + t.length) (ts.map toItem) := by
  rw [parseAt]
  split
  · next e he =>
      rw [he]
      rfl
  · next ts hts =>
      have hbind : (tokenize start t >>= fun ts =>
          Grammar.whole (start + t.length) (ts.map toItem))
          = Grammar.whole (start + t.length) (ts.map toItem) := by
        rw [hts]
        rfl
      rw [hbind]
      congr 1
      refine Eq.trans (List.map_congr_left ?_) (List.attach_map_val (f := toItem))
      rintro ⟨⟨k, p⟩, mem⟩ -
      cases k with
      | template raw =>
          show _ = (⟨.template ⟨raw, readBody (p + 1) raw⟩, p⟩ : Item)
          rw [readBody, ← mapM_attach_parts]
      | _ => rfl

end Expr

end KeyHarvest
