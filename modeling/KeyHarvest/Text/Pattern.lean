/-
Patterns over code points: a sequence of items, each one code point of a
class or a run of one or more. A greedy run takes as much as it can and
gives back until the rest fits; a lazy run takes as little as it can. The
answer is the length that each item takes in the first way that fits, in
that order of trying.
-/
import KeyHarvest.Text.Basic

namespace KeyHarvest

namespace Pattern

/-- One item of a pattern. -/
inductive Item where
  | one (p : CodePoint → Bool)
  | greedy (p : CodePoint → Bool)
  | lazy (p : CodePoint → Bool)

variable {β : Type}

/-- A run of class `p`, as long as possible, before a rest that fits. -/
def greedyRun (p : CodePoint → Bool) (rest : Text → Option β) : Text → Option (Nat × β)
  | [] => none
  | c :: cs =>
      if p c then
        match greedyRun p rest cs with
        | some (n, b) => some (n + 1, b)
        | none => (rest cs).map fun b => (1, b)
      else none

/-- A run of class `p`, as short as possible, before a rest that fits. -/
def lazyRun (p : CodePoint → Bool) (rest : Text → Option β) : Text → Option (Nat × β)
  | [] => none
  | c :: cs =>
      if p c then
        match rest cs with
        | some b => some (1, b)
        | none => (lazyRun p rest cs).map fun r => (r.1 + 1, r.2)
      else none

/-- The lengths of the items at the start of a text, if they fit. -/
def lengths? : List Item → Text → Option (List Nat)
  | [], _ => some []
  | .one p :: items, t =>
      match t with
      | [] => none
      | c :: cs => if p c then (lengths? items cs).map (1 :: ·) else none
  | .greedy p :: items, t => (greedyRun p (lengths? items) t).map fun r => r.1 :: r.2
  | .lazy p :: items, t => (lazyRun p (lengths? items) t).map fun r => r.1 :: r.2

/-- The length of a pattern at the start of a text, if it fits. -/
def length? (items : List Item) (t : Text) : Option Nat :=
  (lengths? items t).map fun ns => ns.foldr Nat.add 0

/-- The items that spell a text. -/
def spelled (t : Text) : List Item := t.map fun c => .one (· = c)

/-- The places where a pattern fits, from left to right and apart from
each other. -/
def findAll (items : List Item) : Text → List Text
  | [] => []
  | c :: cs =>
      match length? items (c :: cs) with
      | some n => (c :: cs).take n :: findAll items (cs.drop (n - 1))
      | none => findAll items cs
termination_by t => t.length
decreasing_by all_goals (simp only [List.length_cons, List.length_drop]; omega)

end Pattern

end KeyHarvest
