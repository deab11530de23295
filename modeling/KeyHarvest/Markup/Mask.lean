/-
Masking. Markup is read from the whole template, and there a comparison
inside an interpolation or inside the parameters of a block, such as
`@if (a < b)`, would look like a tag. So before the markup is read, every
angle bracket inside such code is replaced by a space. No length changes,
so every offset in the masked text is an offset in the template.
-/
import KeyHarvest.Expr.Interpolation

namespace KeyHarvest

namespace Mask

-- ==================================================== block parameters

/-- The words of the blocks that take parameters. -/
def blockWords : List Text :=
  [['i', 'f'], ['f', 'o', 'r'], ['s', 'w', 'i', 't', 'c', 'h'], ['c', 'a', 's', 'e'],
   ['d', 'e', 'f', 'e', 'r']]

/-- The length of the leading run of blanks. -/
def blanks (t : Text) : Nat := (t.takeWhile CodePoint.isBlank).length

/-- The length of the block word at the start of a text; `else if` is one,
with any blanks between its parts. -/
def wordLength? (t : Text) : Option Nat :=
  match blockWords.find? (·.isPrefixOf t) with
  | some w => some w.length
  | none => do
      let rest ← Text.after? ['e', 'l', 's', 'e'] t
      let _ ← Text.after? ['i', 'f'] (rest.drop (blanks rest))
      if blanks rest = 0 then none else some (blanks rest + 6)

/-- The length of the opening of block parameters at the start of a text,
up to and with the parenthesis. -/
def openingLength? (t : Text) : Option Nat := do
  let rest ← Text.after? ['@'] t
  let word ← wordLength? rest
  let gap := blanks (rest.drop word)
  if Text.starts '(' (rest.drop (word + gap)) then some (word + gap + 2) else none

/-- Whether the search for the closing parenthesis goes on; the state is
the number of parentheses open. The brace of a block body ends it in
vain. -/
def parenStep (depth : Nat) : Text → Quoted.Verdict Nat
  | [] => .go depth
  | c :: _ =>
      if c = '(' then .go (depth + 1)
      else if c = ')' then
        match depth with
        | 0 => .stop
        | depth + 1 => .go depth
      else if c = '{' then .fail
      else .go depth

/-- The length of the parameters at the start of a text, up to their
closing parenthesis. -/
def paramsLength? (t : Text) : Option Nat := Quoted.find ['\'', '"', '`'] parenStep 0 none t

/-- The spans of the block parameters in a text that starts at an
offset. The search for openings goes on after each opening. -/
def blockSpans (offset : Nat) : Text → List (Nat × Nat)
  | [] => []
  | c :: cs =>
      match openingLength? (c :: cs) with
      | some n =>
          let rest := blockSpans (offset + 1 + (n - 1)) (cs.drop (n - 1))
          match paramsLength? (cs.drop (n - 1)) with
          | some k => (offset + n, offset + n + k) :: rest
          | none => rest
      | none => blockSpans (offset + 1) cs
termination_by t => t.length
decreasing_by all_goals (simp only [List.length_cons, List.length_drop]; omega)

-- ============================================================ masking

/-- The spans of the code of interpolations. -/
def codeSpans (t : Text) : List (Nat × Nat) :=
  match Interpolated.split t with
  | none => []
  | some i => i.chunks.map fun c => (c.offset, c.offset + c.code.length)

/-- The spans in which angle brackets are masked. -/
def spans (t : Text) : List (Nat × Nat) := codeSpans t ++ blockSpans 0 t

/-- Whether an offset lies in one of several spans. -/
def covered (spans : List (Nat × Nat)) (i : Nat) : Bool :=
  spans.any fun s => s.1 ≤ i && i < s.2

/-- A text that starts at an offset, with the angle brackets inside the
spans replaced. -/
def blankOut (spans : List (Nat × Nat)) (offset : Nat) : Text → Text
  | [] => []
  | c :: cs =>
      (if (c = '<' ∨ c = '>') ∧ covered spans offset then CodePoint.ofChar ' ' else c)
        :: blankOut spans (offset + 1) cs

end Mask

/-- The text with masked angle brackets. -/
def mask (t : Text) : Text := Mask.blankOut (Mask.spans t) 0 t

end KeyHarvest
