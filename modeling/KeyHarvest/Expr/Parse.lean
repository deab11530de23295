/-
Reading expressions. `Expr.parseAt` cuts a text into tokens, reads the
body of every backtick literal, and hands the tokens to the grammar. A
body holds texts that are expressions themselves; they are read by the
same function, each from the position where it stands, so a fault deep
inside is reported where it is in the outermost text. The recursion ends
because the code of a substitution is shorter than the text around it.

`Expr.parseBinding` reads the value of a property binding, from the start
of its text.
-/
import KeyHarvest.Expr.Grammar
import KeyHarvest.Expr.Substitution

namespace KeyHarvest

-- ================================================= tokens are bounded

namespace Lexeme

/-- No piece is longer than the text. -/
theorem raw_length_le_of_mem_split {t : Text} {l : Lexeme} (h : l ∈ split t) :
    l.raw.length ≤ t.length := by
  fun_induction split t with
  | case1 => simp at h
  | case2 c cs ih =>
      rcases List.mem_cons.1 h with rfl | h
      · simp only [List.length_cons, List.length_take]
        omega
      · have := ih h
        simp only [List.length_drop, List.length_cons] at this ⊢
        omega

/-- Every token comes from a piece. -/
theorem exists_token?_of_mem_tokens {position : Nat} {ls : List Lexeme}
    {ts : List (Token Text)} (hts : tokens position ls = .ok ts) {t : Token Text}
    (h : t ∈ ts) : ∃ l ∈ ls, ∃ p, l.token? p = .ok (some t) := by
  induction ls generalizing position ts with
  | nil =>
      simp only [tokens, Except.ok.injEq] at hts
      subst hts
      simp at h
  | cons l ls ih =>
      simp only [tokens, bind, Except.bind] at hts
      split at hts
      · cases hts
      · next first hfirst =>
          split at hts
          · cases hts
          · next rest hrest =>
              simp only [pure, Except.pure, Except.ok.injEq] at hts
              subst hts
              rcases List.mem_append.1 h with h | h
              · refine ⟨l, by simp, position, ?_⟩
                rw [hfirst]
                simpa using h
              · obtain ⟨l', hl', p, hp⟩ := ih hrest h
                exact ⟨l', by simp [hl'], p, hp⟩

/-- The body of a backtick token is what its piece encloses. -/
theorem raw_of_token?_template {l : Lexeme} {p q : Nat} {body : Text}
    (h : l.token? p = .ok (some ⟨.template body, q⟩)) : body = inner l.raw := by
  unfold token? at h
  split at h <;> try (simp at h; done)
  · simp only [Except.ok.injEq, Option.some.injEq, Token.mk.injEq,
      TokenKind.template.injEq] at h
    exact h.1.symm
  · cases hn : numeral l.raw <;> simp [hn, Except.map] at h
  · split at h <;> simp at h
  · split at h
    · split at h <;> simp at h
    · simp at h

end Lexeme

/-- The body of a backtick token is shorter than the text it is in. -/
theorem template_length_lt {start : Nat} {t : Text} {ts : List (Token Text)}
    (hts : tokenize start t = .ok ts) {body : Text} {p : Nat}
    (h : ⟨.template body, p⟩ ∈ ts) : body.length < t.length := by
  obtain ⟨l, hl, q, hq⟩ := Lexeme.exists_token?_of_mem_tokens hts h
  have hbody := Lexeme.raw_of_token?_template hq
  have hle := Lexeme.raw_length_le_of_mem_split hl
  have hpos := List.length_pos_iff.2 (Lexeme.raw_ne_nil_of_mem_split hl)
  subst hbody
  simp only [Lexeme.inner, List.length_dropLast, List.length_drop]
  omega

-- ============================================================ reading

namespace Expr

/-- The template literal of a body whose substitutions have been read. -/
def ofBody (start : Nat) (body : BacktickBody) (items : List Expr) : Except ExprError Expr :=
  match body.last with
  | .error place => .error (.malformed .unclosedSubstitution (start + place))
  | .ok last =>
      .ok (.template (body.parts.map (Escape.decode ·.before) ++ [Escape.decode last]) items)

/-- The expression of a text whose first code point has the given
position. -/
def parseAt (start : Nat) (t : Text) : Except ExprError Expr :=
  match hts : tokenize start t with
  | .error e => .error e
  | .ok ts =>
      Grammar.whole (start + t.length) <| ts.attach.map fun ⟨token, mem⟩ =>
        match token, mem with
        | ⟨.template raw, p⟩, mem =>
            let body := BacktickBody.split 0 raw
            have _ : raw.length < t.length := template_length_lt hts mem
            let outcome := do
              let items ← body.parts.attach.mapM fun ⟨part, hpart⟩ =>
                have _ : part.code.length < raw.length := BacktickBody.code_length_lt hpart
                parseAt (p + 1 + part.offset) part.code
              ofBody (p + 1) body items
            ⟨.template ⟨raw, outcome⟩, p⟩
        | ⟨.keyword word, p⟩, _ => ⟨.keyword word, p⟩
        | ⟨.name n, p⟩, _ => ⟨.name n, p⟩
        | ⟨.text value, p⟩, _ => ⟨.text value, p⟩
        | ⟨.number value, p⟩, _ => ⟨.number value, p⟩
        | ⟨.operator op, p⟩, _ => ⟨.operator op, p⟩
        | ⟨.mark m, p⟩, _ => ⟨.mark m, p⟩
termination_by t.length
decreasing_by omega

/-- The value of a property binding; a blank one is the empty
expression. -/
def parseBinding (t : Text) : Except ExprError Expr := do
  let e ← parseAt 0 t
  return .sourced e t

end Expr

end KeyHarvest
