/-
Where a text starts. A text that stands further to the right is read the
same way: it gives the same expression, or the same fault as far to the
right (`parseAt_add`). Pieces do not know where they stand, and their
tokens move with them. To the grammar a position is something to report,
so moved tokens are read alike (`movedSimulation`); the substitutions of
backtick literals are texts of their own and move with the literal.
-/
import KeyHarvest.Proofs.Expr.Simulation
import Mathlib.Data.List.Forall2

namespace KeyHarvest

-- ============================================================= moving

/-- The same refusal further to the right; a numeral that is too long has
no place. -/
def ExprError.move (d : Nat) : ExprError → ExprError
  | .malformed fault p => .malformed fault (p + d)
  | .oversized n => .oversized n

/-- The same token further to the right. -/
def Token.move {τ : Type} (d : Nat) (t : Token τ) : Token τ := ⟨t.kind, t.position + d⟩

/-- The errors of two readings of which the second is further to the
right. -/
def Moved (d : Nat) (e f : ExprError) : Prop := f = e.move d

/-- Results that are alike up to moved errors are equal up to them. -/
theorem alike_moved_iff {α : Type} {d : Nat} {x y : Except ExprError α} :
    Grammar.Alike Eq (Moved d) x y ↔ y = x.mapError (ExprError.move d) := by
  cases x with
  | ok a =>
      cases y with
      | ok b => simp [Grammar.Alike, Except.mapError, eq_comm]
      | error f => simp [Grammar.Alike, Except.mapError]
  | error e =>
      cases y with
      | ok b => simp [Grammar.Alike, Except.mapError]
      | error f => simp [Grammar.Alike, Moved, Except.mapError]

/-- Pieces read in a row are read alike when each of them is. -/
theorem alike_mapM {α β : Type} {E : ExprError → ExprError → Prop} {f g : α → Except ExprError β}
    {l : List α} (h : ∀ a ∈ l, Grammar.Alike Eq E (f a) (g a)) :
    Grammar.Alike Eq E (l.mapM f) (l.mapM g) := by
  induction l with
  | nil => exact .ok rfl
  | cons a l ih =>
      rw [List.mapM_cons, List.mapM_cons]
      refine (h a List.mem_cons_self).bind ?_
      rintro b _ rfl
      refine (ih fun x hx => h x (List.mem_cons_of_mem a hx)).bind ?_
      rintro bs _ rfl
      exact .ok rfl

-- ============================================================= tokens

namespace Lexeme

/-- The token of a piece moves with it. -/
theorem token?_add (l : Lexeme) (p d : Nat) :
    l.token? (p + d)
      = ((l.token? p).map (Option.map (Token.move d))).mapError (ExprError.move d) := by
  obtain ⟨kind, raw⟩ := l
  cases kind with
  | number =>
      have hnumeral : ∀ e, numeral raw = .error e → e.move d = e := by
        intro e he
        unfold numeral at he
        dsimp only at he
        split at he
        · split at he
          · cases he
          · cases he
            rfl
        · cases he
      simp only [token?]
      cases hn : numeral raw with
      | ok n => rfl
      | error e => exact congrArg Except.error (hnumeral e hn).symm
  | word =>
      simp only [token?]
      split <;> rfl
  | stray =>
      simp only [token?]
      split
      · split <;> rfl
      · rfl
  | _ => rfl

/-- The tokens of pieces move with the first of them. -/
theorem tokens_add (ls : List Lexeme) (p d : Nat) :
    tokens (p + d) ls
      = ((tokens p ls).map (List.map (Token.move d))).mapError (ExprError.move d) := by
  induction ls generalizing p with
  | nil => rfl
  | cons l ls ih =>
      have hnext : p + d + l.raw.length = p + l.raw.length + d := Nat.add_right_comm ..
      rw [tokens, tokens, token?_add, hnext, ih]
      cases l.token? p with
      | error e => rfl
      | ok first =>
          cases tokens (p + l.raw.length) ls with
          | error e => rfl
          | ok rest =>
              show Except.ok ((first.map (Token.move d)).toList ++ rest.map (Token.move d))
                = Except.ok ((first.toList ++ rest).map (Token.move d))
              rw [List.map_append, Option.toList_map]

end Lexeme

/-- The tokens of a text move with it. -/
theorem tokenize_add (start d : Nat) (t : Text) :
    tokenize (start + d) t
      = ((tokenize start t).map (List.map (Token.move d))).mapError (ExprError.move d) :=
  Lexeme.tokens_add (Lexeme.split t) start d

-- ============================================================ grammar

namespace Grammar

/-- Items of which the second is the first, further to the right. -/
structure MovedItem (d : Nat) (t u : Item) : Prop where
  kind : Kin (Moved d) t.kind u.kind
  position : u.position = t.position + d

/-- Moved items are read alike. -/
theorem movedSimulation (stop d : Nat) :
    Simulation stop (stop + d) (Moved d) (List.Forall₂ (MovedItem d)) where
  front := by
    intro ts us h
    cases h with
    | nil =>
        refine .ended rfl rfl (e := .malformed .unexpectedEnd stop)
          (f := .malformed .unexpectedEnd (stop + d)) ?_ ?_ rfl
        · rw [primary]
          rfl
        · rw [primary]
          rfl
    | @cons t u r s htu hrs => exact .step htu.kind hrs
  fault := by
    intro ts us fault h _
    cases h with
    | nil => rfl
    | @cons t u r s htu hrs =>
        show ExprError.malformed fault u.position = .malformed fault (t.position + d)
        rw [htu.position]

/-- Moved items are shown alike. -/
theorem shown_of_kin {E : ExprError → ExprError → Prop} {t u : Item} (h : Kin E t.kind u.kind) :
    shown t = shown u := by
  obtain ⟨k, p⟩ := t
  obtain ⟨k', q⟩ := u
  unfold shown
  cases h with
  | same k => rfl
  | literal => rfl

/-- Items that are alike one by one are read alike as a whole. -/
theorem alike_whole_of_forall₂ {stop stop' : Nat} {E : ExprError → ExprError → Prop}
    {R : Item → Item → Prop} (sim : Simulation stop stop' E (List.Forall₂ R))
    (hkin : ∀ {t u}, R t u → Kin E t.kind u.kind) {ts us : List Item}
    (h : List.Forall₂ R ts us) : Alike Eq E (whole stop ts) (whole stop' us) := by
  have hread := alike_read sim .pipe h
  cases h with
  | nil => exact .ok rfl
  | @cons t u r s htu hrs =>
      rw [whole, whole]
      refine hread.andThen ?_
      intro e r' s' _ _ hrest
      cases hrest with
      | nil => exact .ok rfl
      | @cons t' u' r' s' htu' hrs' =>
          show Alike Eq E (fail stop (.unexpectedToken (shown t')) (t' :: r'))
            (fail stop' (.unexpectedToken (shown u')) (u' :: s'))
          rw [← shown_of_kin (hkin htu')]
          exact sim.fail (.cons htu' hrs') (.next _ _)

/-- Moved items as a whole are read alike. -/
theorem alike_whole {stop d : Nat} {ts us : List Item} (h : List.Forall₂ (MovedItem d) ts us) :
    Alike Eq (Moved d) (whole stop ts) (whole (stop + d) us) :=
  alike_whole_of_forall₂ (movedSimulation stop d) MovedItem.kind h

end Grammar

-- ============================================================== texts

namespace Expr

/-- A backtick body moves with its literal, when its substitutions do. -/
theorem alike_readBody {start d : Nat} {raw : Text}
    (h : ∀ part ∈ (BacktickBody.split 0 raw).parts,
      Grammar.Alike Eq (Moved d) (parseAt (start + part.offset) part.code)
        (parseAt (start + d + part.offset) part.code)) :
    Grammar.Alike Eq (Moved d) (readBody start raw) (readBody (start + d) raw) := by
  unfold readBody
  refine (alike_mapM h).bind ?_
  rintro items _ rfl
  unfold ofBody
  cases (BacktickBody.split 0 raw).last with
  | ok last => exact .ok rfl
  | error place =>
      show ExprError.malformed _ (start + d + place) = .malformed _ (start + place + d)
      rw [Nat.add_right_comm]

/-- The item of a moved token, when the substitutions in it move. -/
theorem movedItem_toItem {d : Nat} {t : Token Text}
    (h : ∀ raw, t.kind = .template raw →
      Grammar.Alike Eq (Moved d) (readBody (t.position + 1) raw)
        (readBody (t.position + 1 + d) raw)) :
    Grammar.MovedItem d (toItem t) (toItem (t.move d)) := by
  obtain ⟨kind, p⟩ := t
  refine ⟨?_, rfl⟩
  cases kind with
  | template raw =>
      have hbody := h raw rfl
      rw [Nat.add_right_comm] at hbody
      exact .literal hbody
  | keyword word => exact .same (.keyword word)
  | name n => exact .same (.name n)
  | text value => exact .same (.text value)
  | number value => exact .same (.number value)
  | operator op => exact .same (.operator op)
  | mark m => exact .same (.mark m)

/-- A text that stands further to the right gives the same expression, or
the same refusal as far to the right. -/
theorem parseAt_add (start d : Nat) (t : Text) :
    parseAt (start + d) t = (parseAt start t).mapError (ExprError.move d) := by
  rw [← alike_moved_iff, parseAt_eq, parseAt_eq, tokenize_add]
  cases hts : tokenize start t with
  | error e => exact rfl
  | ok ts =>
      have hstop : start + d + t.length = start + t.length + d := Nat.add_right_comm ..
      show Grammar.Alike Eq (Moved d) (Grammar.whole (start + t.length) (ts.map toItem))
        (Grammar.whole (start + d + t.length) ((ts.map (Token.move d)).map toItem))
      rw [hstop]
      refine Grammar.alike_whole ?_
      rw [List.map_map, List.forall₂_map_left_iff, List.forall₂_map_right_iff,
        List.forall₂_same]
      intro token hmem
      refine movedItem_toItem ?_
      intro raw hraw
      obtain ⟨kind, p⟩ := token
      obtain rfl : kind = .template raw := hraw
      -- the code of a substitution is shorter than the text around it
      have hlt : raw.length < t.length := template_length_lt hts hmem
      refine alike_readBody fun part hpart => ?_
      have hcode : part.code.length < raw.length := BacktickBody.code_length_lt hpart
      have hoffset : p + 1 + d + part.offset = p + 1 + part.offset + d := Nat.add_right_comm ..
      show Grammar.Alike Eq (Moved d) (parseAt (p + 1 + part.offset) part.code)
        (parseAt (p + 1 + d + part.offset) part.code)
      rw [hoffset, alike_moved_iff]
      exact parseAt_add (p + 1 + part.offset) d part.code
termination_by t.length

/-- The body of a backtick literal moves with it. -/
theorem readBody_add (start d : Nat) (raw : Text) :
    readBody (start + d) raw = (readBody start raw).mapError (ExprError.move d) := by
  rw [← alike_moved_iff]
  refine alike_readBody fun part _ => ?_
  rw [Nat.add_right_comm, alike_moved_iff]
  exact parseAt_add (start + part.offset) d part.code

end Expr

end KeyHarvest
