/-
Wildcards in one name of a path: `*` for any run of code points, `?` for
one, `[a-c]` and `[!a-c]` for one of a set or none of it, and a backslash
in front of a code point that stands for itself. A name holds no slash, so
no wildcard ever reaches over one.
-/
import KeyHarvest.Text.Basic

namespace KeyHarvest

namespace Glob

/-- One piece of a wildcard pattern. -/
inductive Item where
  | literal (c : CodePoint)
  | any
  | run
  | oneOf (negated : Bool) (ranges : List (CodePoint × CodePoint))
  deriving DecidableEq, Repr

-- =========================================================== reading

/-- The ranges between brackets; a code point alone is a range of one. -/
def ranges : Text → List (CodePoint × CodePoint)
  | [] => []
  | [a] => [(a, a)]
  | [a, b] => [(a, a), (b, b)]
  | a :: b :: c :: cs => if b = '-' then (a, c) :: ranges cs else (a, a) :: ranges (b :: c :: cs)

/-- What follows the sign that negates a set. -/
def afterSign (t : Text) : Text :=
  if Text.starts '!' t || Text.starts '^' t then t.drop 1 else t

/-- How much of a set is certainly inside it: a closing bracket in the
first place is a member. -/
def sure (t : Text) : Nat := if Text.starts ']' t then 1 else 0

/-- The members of a set and what follows its closing bracket, for the
text after the opening bracket and the sign; none when it is not closed. -/
def members? (t : Text) : Option (Text × Text) :=
  match (t.drop (sure t)).dropWhile fun (c : CodePoint) => c ≠ ']' with
  | [] => none
  | _ :: rest =>
      some (t.take (sure t) ++ (t.drop (sure t)).takeWhile fun (c : CodePoint) => c ≠ ']', rest)

/-- A set is followed by less than what it began with. -/
theorem length_members_lt {t inner rest : Text} (h : members? t = some (inner, rest)) :
    rest.length < t.length := by
  unfold members? at h
  split at h
  · simp at h
  · next c cs hd =>
      have hle := (List.dropWhile_suffix (fun (c : CodePoint) => decide (c ≠ ']'))
        (l := t.drop (sure t))).length_le
      rw [hd] at hle
      have hcs : cs = rest := (Prod.mk.inj (Option.some.inj h)).2
      subst hcs
      simp only [List.length_cons, List.length_drop] at hle
      omega

/-- The part after a sign is not longer. -/
theorem length_afterSign_le (t : Text) : (afterSign t).length ≤ t.length := by
  unfold afterSign
  split <;> simp

/-- Whether no range ends before it begins. -/
def areOrdered (rs : List (CodePoint × CodePoint)) : Bool := rs.all fun r => r.1.val ≤ r.2.val

/-- The pattern that a text spells. A set that is not closed makes its
bracket a literal; a backslash with nothing behind it and a range that ends
before it begins spell no pattern. -/
def ofText? : Text → Option (List Item)
  | [] => some []
  | c :: cs =>
      if c = '\\' then
        match cs with
        | [] => none
        | d :: ds => (ofText? ds).map (.literal d :: ·)
      else if c = '*' then (ofText? cs).map (.run :: ·)
      else if c = '?' then (ofText? cs).map (.any :: ·)
      else if c = '[' then
        match _h : members? (afterSign cs) with
        | none => (ofText? cs).map (.literal c :: ·)
        | some (inner, rest) =>
            if areOrdered (ranges inner) then
              (ofText? rest).map (.oneOf (afterSign cs != cs) (ranges inner) :: ·)
            else none
      else (ofText? cs).map (.literal c :: ·)
termination_by t => t.length
decreasing_by
  · simp only [List.length_cons]; omega
  · simp only [List.length_cons]; omega
  · simp only [List.length_cons]; omega
  · simp only [List.length_cons]; omega
  · have := length_members_lt _h
    have := length_afterSign_le cs
    simp only [List.length_cons]
    omega
  · simp only [List.length_cons]; omega

-- ========================================================== matching

/-- Whether a pattern covers a name from end to end. -/
def covers : List Item → Text → Bool
  | [], t => t.isEmpty
  | .run :: items, t => (List.range (t.length + 1)).any fun n => covers items (t.drop n)
  | .literal _ :: _, [] => false
  | .literal c :: items, d :: t => c = d && covers items t
  | .any :: _, [] => false
  | .any :: items, _ :: t => covers items t
  | .oneOf _ _ :: _, [] => false
  | .oneOf negated rs :: items, d :: t =>
      (rs.any fun r => d.within r.1.val r.2.val) != negated && covers items t

end Glob

end KeyHarvest
