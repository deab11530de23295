/-
Interpolated texts: `a {{ b }} c` is the string `a `, the code ` b ` and
the string ` c`. Code ends at the first `}}` outside quotes, and quoting
starts afresh after every `{{`. A `{{` without such an end is ordinary
text, together with all that follows it.

`Interpolated.split` cuts a text; `Expr.parseInterpolated` reads the code of
every cut as an expression, in order, and refuses blank code.
-/
import KeyHarvest.Expr.Parse

namespace KeyHarvest

-- ============================================================ cutting

/-- The code of one interpolation and where it begins in the text. -/
structure Chunk where
  code : Text
  offset : Nat
  deriving DecidableEq, Repr

/-- A text cut at its interpolations: a first string, and a string after
every chunk of code. -/
structure Interpolated where
  first : Text
  rest : List (Chunk × Text)
  deriving DecidableEq, Repr

namespace Interpolated

/-- The strings between the chunks, one more than chunks. -/
def strings (i : Interpolated) : List Text := i.first :: i.rest.map Prod.snd

/-- The chunks of code in order. -/
def chunks (i : Interpolated) : List Chunk := i.rest.map Prod.fst

/-- Code goes on until two closing braces. -/
def endStep (_ : Unit) : Text → Quoted.Verdict Unit
  | c :: cs => if c = '}' ∧ Text.starts '}' cs then .stop else .go ()
  | [] => .go ()

/-- The length of the code at the start of a text, up to its `}}`. -/
def codeLength? (t : Text) : Option Nat := Quoted.find ['\'', '"', '`'] endStep () none t

/-- One more code point in front of the first string. -/
def push (c : CodePoint) (i : Interpolated) : Interpolated := ⟨c :: i.first, i.rest⟩

/-- One more chunk in front of the first string. -/
def cons (c : Chunk) (i : Interpolated) : Interpolated := ⟨[], (c, i.first) :: i.rest⟩

/-- A text that starts at a position, cut at its interpolations. -/
def cut (start : Nat) : Text → Interpolated
  | [] => ⟨[], []⟩
  | c :: cs =>
      if c = '{' ∧ Text.starts '{' cs then
        match codeLength? (cs.drop 1) with
        | none => ⟨c :: cs, []⟩
        | some n =>
            cons ⟨(cs.drop 1).take n, start + 2⟩ (cut (start + n + 4) (cs.drop (n + 3)))
      else push c (cut (start + 1) cs)
termination_by t => t.length
decreasing_by all_goals (simp only [List.length_cons, List.length_drop]; omega)

/-- A text cut at its interpolations, when it has any. -/
def split (t : Text) : Option Interpolated :=
  if (cut 0 t).rest.isEmpty then none else some (cut 0 t)

end Interpolated

-- ============================================================ reading

namespace Expr

/-- The expression of one chunk, which must not be blank. -/
def ofChunk (c : Chunk) : Except ExprError Expr :=
  if Text.isBlank c.code then .error (.malformed .blankInterpolation c.offset)
  else parseAt c.offset c.code

/-- The interpolations of a text, when it has any. -/
def parseInterpolated (t : Text) : Except ExprError (Option Expr) :=
  match Interpolated.split t with
  | none => .ok none
  | some i => do
      let items ← i.chunks.mapM ofChunk
      return some (.sourced (.interpolation i.strings items) t)

end Expr

end KeyHarvest
