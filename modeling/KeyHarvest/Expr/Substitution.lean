/-
The body of a backtick literal: raw chunks of text, and between them the
code of `${…}` substitutions. A substitution ends at its closing brace,
where braces inside count and quoted ones do not. One that never ends
stops the splitting, and its place is kept instead of a last chunk.
-/
import KeyHarvest.Expr.Escape

namespace KeyHarvest

/-- A substitution: the raw chunk before it, its code, and where the code
begins in the body. -/
structure Substitution where
  before : Text
  code : Text
  offset : Nat
  deriving DecidableEq, Repr

/-- A body cut at its substitutions; `last` is the final chunk, or the
place of a substitution without an end. -/
structure BacktickBody where
  parts : List Substitution
  last : Except Nat Text

namespace BacktickBody

/-- Whether the search for a closing brace goes on at a code point; the
state is the number of braces open. -/
def braceStep (depth : Nat) : Text → Quoted.Verdict Nat
  | [] => .go depth
  | c :: _ =>
      if c = '{' then .go (depth + 1)
      else if c = '}' then
        match depth with
        | 0 => .stop
        | depth + 1 => .go depth
      else .go depth

/-- The length of the code at the start of a text, up to the brace that
closes it. -/
def codeLength? (t : Text) : Option Nat := Quoted.find ['\'', '"'] braceStep 0 none t

/-- The body with more raw text in front of its first chunk. -/
def push (raw : Text) (b : BacktickBody) : BacktickBody :=
  match b.parts with
  | [] => ⟨[], b.last.map (raw ++ ·)⟩
  | p :: ps => ⟨{ p with before := raw ++ p.before } :: ps, b.last⟩

/-- The body with a substitution in front. -/
def cons (p : Substitution) (b : BacktickBody) : BacktickBody := ⟨p :: b.parts, b.last⟩

/-- The pieces of a body, of which `start` code points came before. -/
def split (start : Nat) : Text → BacktickBody
  | [] => ⟨[], .ok []⟩
  | c :: cs =>
      if c = '\\' then push (c :: cs.take 1) (split (start + 2) (cs.drop 1))
      else if c = '$' ∧ Text.starts '{' cs then
        match codeLength? (cs.drop 1) with
        | none => ⟨[], .error start⟩
        | some n =>
            cons ⟨[], (cs.drop 1).take n, start + 2⟩ (split (start + n + 3) (cs.drop (n + 2)))
      else push [c] (split (start + 1) cs)
termination_by t => t.length
decreasing_by all_goals (simp only [List.length_cons, List.length_drop]; omega)

/-- Text in front changes no code. -/
theorem exists_code_of_mem_push {raw : Text} {b : BacktickBody} {p : Substitution}
    (h : p ∈ (b.push raw).parts) : ∃ p' ∈ b.parts, p'.code = p.code := by
  unfold push at h
  split at h
  · simp at h
  · next q qs hq =>
      rcases List.mem_cons.1 h with rfl | h
      · exact ⟨q, by simp [hq], rfl⟩
      · exact ⟨p, by simp [hq, h], rfl⟩

/-- The code of a substitution is shorter than the body. -/
theorem code_length_lt {start : Nat} {t : Text} {p : Substitution}
    (h : p ∈ (split start t).parts) : p.code.length < t.length := by
  fun_induction split start t generalizing p with
  | case1 => simp at h
  | case2 start cs ih =>
      obtain ⟨p', hp', hcode⟩ := exists_code_of_mem_push h
      have := ih hp'
      rw [← hcode]
      simp only [List.length_drop, List.length_cons] at this ⊢
      omega
  | case3 => simp at h
  | case4 start c cs hc hd n hn ih =>
      rcases List.mem_cons.1 h with rfl | h
      · simp only [List.length_take, List.length_drop, List.length_cons]
        omega
      · have := ih h
        simp only [List.length_drop, List.length_cons] at this ⊢
        omega
  | case5 start c cs hc hd ih =>
      obtain ⟨p', hp', hcode⟩ := exists_code_of_mem_push h
      have := ih hp'
      rw [← hcode]
      simp only [List.length_cons]
      omega

end BacktickBody

end KeyHarvest
