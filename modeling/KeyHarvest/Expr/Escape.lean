/-
Quotes and backslashes. A quoted text ends at the first matching quote
that no backslash precedes, and inside it a backslash and what follows it
stand for one code point: a named control character, four hexadecimal
digits after `u`, or the escaped code point itself.

`Quoted.find` is the search that respects quoting: it walks a text, skips
what is quoted, and stops where its caller says. Interpolations, block
parameters and substitutions all end at such a place.
-/
import KeyHarvest.Text.Basic

namespace KeyHarvest

-- ============================================================ escapes

namespace Escape

/-- The control characters with a name of one letter. -/
def named : List (Char × Nat) :=
  [('n', 10), ('t', 9), ('r', 13), ('b', 8), ('f', 12), ('v', 11), ('0', 0)]

/-- What a backslash before one code point stands for. -/
def meaning (c : CodePoint) : CodePoint :=
  match named.find? fun p => c = p.1 with
  | some p => .ofNat p.2
  | none => c

/-- The code point of a `u` followed by four hexadecimal digits. -/
def quad? : Text → Option CodePoint
  | u :: a :: b :: c :: d :: _ =>
      if u = 'u' then do
        let a ← a.hexValue?
        let b ← b.hexValue?
        let c ← c.hexValue?
        let d ← d.hexValue?
        return .ofNat (((a * 16 + b) * 16 + c) * 16 + d)
      else none
  | _ => none

/-- The text that a quoted body stands for. A backslash at the very end
stands for itself. -/
def decode : Text → Text
  | [] => []
  | c :: cs =>
      if c = '\\' then
        match quad? cs with
        | some u => u :: decode (cs.drop 5)
        | none =>
            match cs with
            | [] => [c]
            | d :: ds => meaning d :: decode ds
      else c :: decode cs
termination_by t => t.length
decreasing_by all_goals (simp only [List.length_cons, List.length_drop]; omega)

end Escape

-- ============================================================= quotes

namespace Quoted

/-- The number of code points up to and with the closing quote `q`, when
the text is read from just after the opening one. -/
def close? (q : CodePoint) : Text → Option Nat
  | [] => none
  | c :: cs =>
      if c = q then some 1
      else if c = '\\' then
        match cs with
        | [] => none
        | _ :: ds => (close? q ds).map (· + 2)
      else (close? q cs).map (· + 1)

/-- What a search decides at a code point outside quotes. -/
inductive Verdict (σ : Type) where
  | stop
  | fail
  | go (s : σ)

variable {σ : Type}

/-- The number of code points before the first place outside quotes where
`step` stops. A code point of `quotes` opens a quotation that the same
code point closes, and a backslash inside it hides what follows. -/
def find (quotes : Text) (step : σ → Text → Verdict σ) (s : σ) (quote : Option CodePoint) :
    Text → Option Nat
  | [] => none
  | c :: cs =>
      match quote with
      | some q =>
          if c = '\\' then
            match cs with
            | [] => none
            | _ :: ds => (find quotes step s quote ds).map (· + 2)
          else (find quotes step s (if c = q then none else quote) cs).map (· + 1)
      | none =>
          if c ∈ quotes then (find quotes step s (some c) cs).map (· + 1)
          else
            match step s (c :: cs) with
            | .stop => some 0
            | .fail => none
            | .go s' => (find quotes step s' none cs).map (· + 1)

end Quoted

end KeyHarvest
