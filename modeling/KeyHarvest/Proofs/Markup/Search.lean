/-
Searches for the end of code, in a text with another one behind it. A
search that comes to a decision inside a text has nothing to do with what
stands behind it. One that does not goes on there, in the state in which
it left the text (`Quoted.exit?`).

A text is settled (`Settled`) when all the searches that begin in it come
to a decision in it. What stands behind it is then cut at its
interpolations as if it stood alone (`chunks_cut_append`), and so are its
block parameters found (`blockSpans_append`).
-/
import KeyHarvest.Proofs.Expr.Enclosed
import KeyHarvest.Proofs.Markup.Comment
import Mathlib.Data.List.Find

namespace KeyHarvest

open Markup (Bracketed Clipped)

-- =========================================================== searches

namespace Quoted

variable {σ : Type} {quotes : Text} {step : σ → Text → Verdict σ} {s : σ} {c q : CodePoint}

-- a search at each kind of code point

/-- Inside quotes two code points of an escape are passed. -/
theorem find_escaped (d : CodePoint) (ds : Text) :
    find quotes step s (some q) (CodePoint.ofChar '\\' :: d :: ds)
      = (find quotes step s (some q) ds).map (· + 2) := by
  rw [find.eq_def]
  dsimp only
  rw [if_pos rfl]

/-- Inside quotes any other code point is passed, and the quote itself ends
them. -/
theorem find_inside (hc : c ≠ '\\') (cs : Text) :
    find quotes step s (some q) (c :: cs)
      = (find quotes step s (if c = q then none else some q) cs).map (· + 1) := by
  rw [find.eq_def]
  dsimp only
  rw [if_neg hc]

/-- A quote opens a quoted stretch. -/
theorem find_opening (hc : c ∈ quotes) (cs : Text) :
    find quotes step s none (c :: cs) = (find quotes step s (some c) cs).map (· + 1) := by
  rw [find.eq_def]
  dsimp only
  rw [if_pos hc]

/-- Outside of quotes the step decides. -/
theorem find_outside (hc : c ∉ quotes) (cs : Text) :
    find quotes step s none (c :: cs)
      = match step s (c :: cs) with
        | .stop => some 0
        | .fail => none
        | .go s' => (find quotes step s' none cs).map (· + 1) := by
  rw [find.eq_def]
  exact if_neg hc

/-- The state in which a search comes to the end of a text without a
decision: that of its steps, and the quotation it is in. -/
def exit? (quotes : Text) (step : σ → Text → Verdict σ) (s : σ) (quote : Option CodePoint) :
    Text → Option (σ × Option CodePoint)
  | [] => some (s, quote)
  | c :: cs =>
      match quote with
      | some q =>
          if c = '\\' then
            match cs with
            | [] => some (s, quote)
            | _ :: ds => exit? quotes step s quote ds
          else exit? quotes step s (if c = q then none else quote) cs
      | none =>
          if c ∈ quotes then exit? quotes step s (some c) cs
          else
            match step s (c :: cs) with
            | .stop => none
            | .fail => none
            | .go s' => exit? quotes step s' none cs

/-- A search in a text that is bracketed goes on behind it if it came to no
decision, and otherwise has nothing to do with what stands behind it. -/
theorem find_append (rest : Text)
    (hstep : ∀ s c cs, Bracketed (c :: cs) → step s (c :: cs ++ rest) = step s (c :: cs))
    (s : σ) (quote : Option CodePoint) {t : Text} (ht : Clipped t) :
    find quotes step s quote (t ++ rest)
      = match exit? quotes step s quote t with
        | some (s', quote') => (find quotes step s' quote' rest).map (· + t.length)
        | none => find quotes step s quote t := by
  -- one code point more before the search that goes on
  have hlater : ∀ {o : Option (σ × Option CodePoint)} {x y : Option Nat} {n : Nat} (k : Nat),
      (x = match o with
        | some (s', quote') => (find quotes step s' quote' rest).map (· + n)
        | none => y) →
      x.map (· + k) = match o with
        | some (s', quote') => (find quotes step s' quote' rest).map (· + (n + k))
        | none => y.map (· + k) := by
    rintro (_ | ⟨s', quote'⟩) x y n k rfl
    · rfl
    · rw [Option.map_map]
      congr 1
      funext i
      exact Nat.add_assoc i n k
  fun_induction exit? quotes step s quote t with
  | case1 s quote => simp
  | case2 s q => exact absurd (Option.some.inj ht.bracketed) (by decide)
  | case3 s q d ds ih =>
      rw [List.cons_append, List.cons_append, find_escaped, find_escaped]
      exact hlater 2 (ih ht.tail.tail)
  | case4 s c cs q hc ih =>
      rw [List.cons_append, find_inside hc, find_inside hc]
      exact hlater 1 (ih ht.tail)
  | case5 s c cs hc ih =>
      rw [List.cons_append, find_opening hc, find_opening hc]
      exact hlater 1 (ih ht.tail)
  | case6 s c cs hc hstop =>
      have hsame := hstep s c cs ht.bracketed
      rw [List.cons_append] at hsame ⊢
      rw [find_outside hc, find_outside hc, hsame, hstop]
  | case7 s c cs hc hfail =>
      have hsame := hstep s c cs ht.bracketed
      rw [List.cons_append] at hsame ⊢
      rw [find_outside hc, find_outside hc, hsame, hfail]
  | case8 s c cs hc s' hgo ih =>
      have hsame := hstep s c cs ht.bracketed
      rw [List.cons_append] at hsame ⊢
      rw [find_outside hc, find_outside hc, hsame, hgo]
      exact hlater 1 (ih ht.tail)

/-- A search that comes to a decision does so whatever follows. -/
theorem find_append_of_some {rest t : Text} {quote : Option CodePoint} {n : Nat}
    (hstep : ∀ rest s c cs, Bracketed (c :: cs) → step s (c :: cs ++ rest) = step s (c :: cs))
    (ht : Clipped t) (h : find quotes step s quote t = some n) :
    find quotes step s quote (t ++ rest) = some n := by
  have hnothing : find quotes step s quote (t ++ []) = _ := find_append [] (hstep []) s quote ht
  rw [List.append_nil, h] at hnothing
  rw [find_append rest (hstep rest) s quote ht]
  cases hexit : exit? quotes step s quote t with
  | none => exact h
  | some state =>
      rw [hexit] at hnothing
      dsimp only at hnothing
      rw [find] at hnothing
      cases hnothing

/-- A search that never gives up, and does not stop in a text, comes to the
end of it. -/
theorem exists_exit?_of_find {quote : Option CodePoint} {t : Text}
    (hstep : ∀ s t, step s t ≠ .fail) (h : find quotes step s quote t = none) :
    ∃ state, exit? quotes step s quote t = some state := by
  fun_induction exit? quotes step s quote t with
  | case1 s quote => exact ⟨_, rfl⟩
  | case2 s q => exact ⟨_, rfl⟩
  | case3 s q d ds ih =>
      rw [find_escaped, Option.map_eq_none_iff] at h
      exact ih h
  | case4 s c cs q hc ih =>
      rw [find_inside hc, Option.map_eq_none_iff] at h
      exact ih h
  | case5 s c cs hc ih =>
      rw [find_opening hc, Option.map_eq_none_iff] at h
      exact ih h
  | case6 s c cs hc hstop =>
      rw [find_outside hc, hstop] at h
      cases h
  | case7 s c cs hc hfail => exact absurd hfail (hstep s _)
  | case8 s c cs hc s' hgo ih =>
      rw [find_outside hc, hgo] at h
      exact ih (Option.map_eq_none_iff.1 h)

/-- The quotation in which a search leaves a text has a quote. -/
theorem mem_quotes_of_exit? {quote : Option CodePoint} {t : Text} {state : σ × Option CodePoint}
    (hquote : ∀ c ∈ quote, c ∈ quotes) (h : exit? quotes step s quote t = some state) :
    ∀ c ∈ state.2, c ∈ quotes := by
  fun_induction exit? quotes step s quote t with
  | case1 s quote =>
      obtain rfl := Option.some.inj h
      exact hquote
  | case2 s q =>
      obtain rfl := Option.some.inj h
      exact hquote
  | case3 s q d ds ih => exact ih hquote h
  | case4 s c cs q hc ih =>
      refine ih ?_ h
      split
      · nofun
      · exact hquote
  | case5 s c cs hc ih =>
      refine ih ?_ h
      intro d hd
      obtain rfl := Option.some.inj hd
      exact hc
  | case6 s c cs hc hstop => cases h
  | case7 s c cs hc hfail => cases h
  | case8 s c cs hc s' hgo ih => exact ih nofun h

/-- A quotation is closed by its quote. -/
theorem find_of_quote {quote : Option CodePoint} (hquote : ∀ c ∈ quote, c ≠ '\\') (t : Text) :
    find quotes step s quote (quote.toList ++ t)
      = (find quotes step s none t).map (· + quote.toList.length) := by
  cases quote with
  | none => simp
  | some c =>
      show find quotes step s (some c) (c :: t) = _
      rw [find_inside (hquote c rfl), if_pos rfl]
      rfl

/-- Where a search stops, its step says so. -/
theorem exists_stop_of_find {quote : Option CodePoint} {t : Text} {n : Nat}
    (h : find quotes step s quote t = some n) : ∃ s', step s' (t.drop n) = .stop := by
  fun_induction find quotes step s quote t generalizing n with
  | case1 => cases h
  | case2 => cases h
  | case3 s q d ds ih =>
      obtain ⟨k, hk, rfl⟩ := Option.map_eq_some_iff.1 h
      exact ih hk
  | case4 s c cs q hc ih =>
      obtain ⟨k, hk, rfl⟩ := Option.map_eq_some_iff.1 h
      exact ih hk
  | case5 s c cs hc ih =>
      obtain ⟨k, hk, rfl⟩ := Option.map_eq_some_iff.1 h
      exact ih hk
  | case6 s c cs hc hstop =>
      obtain rfl := Option.some.inj h
      exact ⟨s, hstop⟩
  | case7 s c cs hc hfail => cases h
  | case8 s c cs hc s' hgo ih =>
      obtain ⟨k, hk, rfl⟩ := Option.map_eq_some_iff.1 h
      exact ih hk

end Quoted

-- ===================================================== interpolations

namespace Interpolated

/-- The string behind all chunks. -/
def last (i : Interpolated) : Text := i.strings.getLast (List.cons_ne_nil _ _)

theorem last_cons (c : Chunk) (i : Interpolated) : (cons c i).last = i.last :=
  List.getLast_cons (List.cons_ne_nil _ _)

/-- The last part grows with what is pushed only when nothing is cut. -/
theorem last_push (c : CodePoint) (i : Interpolated) :
    (push c i).last = if i.rest = [] then c :: i.last else i.last := by
  obtain ⟨first, rest⟩ := i
  cases rest with
  | nil => rfl
  | cons r rs => rfl

/-- Without a cut the last part is the first. -/
theorem last_of_uncut {i : Interpolated} (h : i.rest = []) : i.last = i.first := by
  obtain ⟨first, rest⟩ := i
  obtain rfl : rest = [] := h
  rfl

theorem chunks_cons (c : Chunk) (i : Interpolated) : (cons c i).chunks = c :: i.chunks := rfl

theorem chunks_push (c : CodePoint) (i : Interpolated) : (push c i).chunks = i.chunks := rfl

theorem endStep_append {s : Unit} {c : CodePoint} {cs : Text} (rest : Text)
    (h : Bracketed (c :: cs)) : endStep s (c :: cs ++ rest) = endStep s (c :: cs) := by
  cases cs with
  | nil =>
      obtain rfl := Option.some.inj h
      rfl
  | cons d ds => rfl

/-- The search for the end of code never fails. -/
theorem endStep_ne_fail (s : Unit) (t : Text) : endStep s t ≠ .fail := by
  unfold endStep
  split
  · split <;> simp
  · simp

/-- Code ends before two closing braces. -/
theorem codeLength?_add_two_le {t : Text} {n : Nat} (h : codeLength? t = some n) :
    n + 2 ≤ t.length := by
  obtain ⟨s, hstop⟩ := Quoted.exists_stop_of_find h
  have hlength : 2 ≤ (t.drop n).length := by
    match hdrop : t.drop n with
    | [] => rw [hdrop] at hstop; cases hstop
    | [c] => rw [hdrop] at hstop; simp [endStep, Text.starts] at hstop
    | c :: d :: ds => simp
  rw [List.length_drop] at hlength
  omega

/-- Code that ends inside such a text is as long whatever follows. -/
theorem codeLength?_append {t : Text} {n : Nat} (rest : Text) (ht : Clipped t)
    (h : codeLength? t = some n) : codeLength? (t ++ rest) = some n :=
  Quoted.find_append_of_some (fun rest _ _ _ => endStep_append rest) ht h

/-- Chunks further to the right. -/
theorem chunks_cut_add (start d : Nat) (t : Text) :
    (cut (start + d) t).chunks
      = (cut start t).chunks.map fun c => ⟨c.code, c.offset + d⟩ := by
  fun_induction cut start t with
  | case1 start => rw [cut]; rfl
  | case2 start c cs hopen hnone =>
      rw [cut, if_pos hopen, hnone]
      rfl
  | case3 start c cs hopen n hsome ih =>
      rw [cut, if_pos hopen, hsome]
      dsimp only
      rw [chunks_cons, chunks_cons, List.map_cons, ← ih, Nat.add_right_comm start d 2,
        Nat.add_right_comm start d n, Nat.add_right_comm (start + n) d 4]
  | case4 start c cs hopen ih =>
      rw [cut, if_neg hopen, chunks_push, chunks_push, ← ih, Nat.add_right_comm]

/-- Where chunks begin and end. -/
theorem chunks_cut_bounds {start : Nat} {t : Text} : ∀ c ∈ (cut start t).chunks,
    start + 2 ≤ c.offset ∧ c.offset + c.code.length + 2 ≤ start + t.length := by
  fun_induction cut start t with
  | case1 start => nofun
  | case2 start c cs hopen hnone => nofun
  | case3 start c cs hopen n hsome ih =>
      have hlength := codeLength?_add_two_le hsome
      rw [List.length_drop] at hlength
      intro chunk hchunk
      rw [List.length_cons]
      rw [chunks_cons] at hchunk
      rcases List.mem_cons.1 hchunk with rfl | hchunk
      · dsimp only
        rw [List.length_take, List.length_drop]
        omega
      · have hbounds := ih chunk hchunk
        rw [List.length_drop] at hbounds
        omega
  | case4 start c cs hopen ih =>
      intro chunk hchunk
      have hbounds := ih chunk hchunk
      rw [List.length_cons]
      omega

/-- Braces that open code in a text are braces of the text. -/
theorem opens_append {c : CodePoint} {cs : Text} (rest : Text) (ht : Clipped (c :: cs)) :
    (c = '{' ∧ Text.starts '{' (cs ++ rest) = true) ↔ (c = '{' ∧ Text.starts '{' cs = true) := by
  cases cs with
  | nil =>
      obtain rfl := Option.some.inj ht.bracketed
      simp
  | cons d ds => rfl

/-- A chunk of a text is one of the longer text. -/
theorem cut_append_of_closed {start n : Nat} {c : CodePoint} {cs : Text} (rest : Text)
    (ht : Clipped (c :: cs)) (hopen : c = '{' ∧ Text.starts '{' cs = true)
    (h : codeLength? (cs.drop 1) = some n) :
    cut start (c :: cs ++ rest)
      = cons ⟨(cs.drop 1).take n, start + 2⟩ (cut (start + n + 4) (cs.drop (n + 3) ++ rest)) := by
  have hlength := codeLength?_add_two_le h
  rw [List.length_drop] at hlength
  have hsome : codeLength? ((cs ++ rest).drop 1) = some n := by
    rw [List.drop_append_of_le_length (by omega)]
    exact codeLength?_append rest (ht.tail.drop 1) h
  have hcode : ((cs ++ rest).drop 1).take n = (cs.drop 1).take n := by
    rw [List.drop_append_of_le_length (by omega), List.take_append_of_le_length]
    rw [List.length_drop]
    omega
  rw [List.cons_append, cut, if_pos ((opens_append rest ht).2 hopen), hsome]
  dsimp only
  rw [hcode, List.drop_append_of_le_length (by omega)]

/-- Where no braces open, the cut goes on with the next code point. -/
theorem cut_append_of_plain {start : Nat} {c : CodePoint} {cs : Text} (rest : Text)
    (ht : Clipped (c :: cs)) (hopen : ¬ (c = '{' ∧ Text.starts '{' cs = true)) :
    cut start (c :: cs ++ rest) = push c (cut (start + 1) (cs ++ rest)) := by
  rw [List.cons_append, cut, if_neg fun h => hopen ((opens_append rest ht).1 h)]

/-- When all code of a text ends in it, what stands behind it is cut by
itself. -/
theorem chunks_cut_append {start : Nat} {t : Text} (rest : Text) (ht : Clipped t)
    (h : Text.holds ['{', '{'] (cut start t).last = false) :
    (cut start (t ++ rest)).chunks
      = (cut start t).chunks ++ (cut (start + t.length) rest).chunks := by
  fun_induction cut start t with
  | case1 start => rfl
  | case2 start c cs hopen hnone =>
      obtain ⟨rfl, hstarts⟩ := hopen
      cases cs with
      | nil => cases hstarts
      | cons d ds =>
          obtain rfl : d = CodePoint.ofChar '{' := by simpa [Text.starts] using hstarts
          simp [last, strings, Text.holds, List.isPrefixOf] at h
  | case3 start c cs hopen n hsome ih =>
      have hlength := codeLength?_add_two_le hsome
      rw [List.length_drop] at hlength
      rw [last_cons] at h
      rw [cut_append_of_closed rest ht hopen hsome, chunks_cons, chunks_cons,
        ih (ht.tail.drop _) h, List.cons_append, List.length_drop, List.length_cons,
        show start + n + 4 + (cs.length - (n + 3)) = start + (cs.length + 1) by omega]
  | case4 start c cs hopen ih =>
      have hlast : Text.holds ['{', '{'] (cut (start + 1) cs).last = false := by
        rw [last_push] at h
        split at h
        · rw [Text.holds, Bool.or_eq_false_iff] at h
          exact h.2
        · exact h
      rw [cut_append_of_plain rest ht hopen, chunks_push, chunks_push, ih ht.tail hlast,
        List.length_cons, Nat.add_assoc, Nat.add_comm 1]

/-- A text that is not cut is its first part. -/
theorem first_cut {start : Nat} {t : Text} (h : (cut start t).rest = []) :
    (cut start t).first = t := by
  fun_induction cut start t with
  | case1 start => rfl
  | case2 start c cs hopen hnone => rfl
  | case3 start c cs hopen n hsome ih => cases h
  | case4 start c cs hopen ih =>
      show c :: (cut (start + 1) cs).first = c :: cs
      rw [ih h]

/-- Code that does not end in a text is left in some state, and a text that
ends it from this state makes it a chunk, beyond the end of the first. -/
theorem exists_chunk_of_open {start : Nat} {t : Text} (ht : Clipped t)
    (h : Text.holds ['{', '{'] (cut start t).last = true) :
    ∃ quote : Option CodePoint, (∀ c ∈ quote, c ∈ codeQuotes)
      ∧ ∀ rest n, Quoted.find codeQuotes endStep () quote rest = some n →
        ∃ c ∈ (cut start (t ++ rest)).chunks,
          c.offset < start + t.length ∧ start + t.length ≤ c.offset + c.code.length := by
  fun_induction cut start t with
  | case1 start => cases h
  | case2 start c cs hopen hnone =>
      -- braces of code that does not end in the text: the chunk comes to end in the rest
      have hcs : 2 ≤ cs.length := by
        obtain ⟨rfl, hstarts⟩ := hopen
        cases cs with
        | nil => cases hstarts
        | cons d ds =>
            cases ds with
            | nil =>
                obtain rfl := Option.some.inj ht.bracketed
                simp [Text.starts] at hstarts
            | cons e es => simp
      obtain ⟨⟨u, quote⟩, hexit⟩ := Quoted.exists_exit?_of_find endStep_ne_fail hnone
      refine ⟨quote, Quoted.mem_quotes_of_exit? (by simp) hexit, ?_⟩
      intro rest n hn
      have hcode : codeLength? ((cs ++ rest).drop 1) = some (n + (cs.drop 1).length) := by
        -- the search stands where it left the text, maybe in a quotation
        have hfind : codeLength? (cs.drop 1 ++ rest) = _ :=
          Quoted.find_append rest (fun _ _ _ => endStep_append rest) () none (ht.tail.drop 1)
        rw [List.drop_append_of_le_length (by omega), hfind, hexit]
        show (Quoted.find codeQuotes endStep () quote rest).map _ = _
        rw [hn]
        rfl
      have hlength := codeLength?_add_two_le hcode
      rw [List.cons_append, cut, if_pos ((opens_append rest ht).2 hopen), hcode]
      refine ⟨_, List.mem_cons_self, ?_, ?_⟩
      · show start + 2 < start + (c :: cs).length
        rw [List.length_cons]
        omega
      · show start + (c :: cs).length ≤ start + 2 + (((cs ++ rest).drop 1).take _).length
        rw [List.length_take, List.length_cons]
        rw [List.length_drop] at hlength ⊢
        omega
  | case3 start c cs hopen n hsome ih =>
      -- code that ends in the text: the open braces are behind it
      have hlength := codeLength?_add_two_le hsome
      rw [List.length_drop] at hlength
      rw [last_cons] at h
      obtain ⟨quote, hquote, hrest⟩ := ih (ht.tail.drop _) h
      refine ⟨quote, hquote, ?_⟩
      intro rest k hk
      obtain ⟨chunk, hchunk, hstart, hstop⟩ := hrest rest k hk
      rw [List.length_drop] at hstart hstop
      rw [cut_append_of_closed rest ht hopen hsome, List.length_cons]
      exact ⟨chunk, List.mem_cons_of_mem _ hchunk, by omega, by omega⟩
  | case4 start c cs hopen ih =>
      -- a code point that opens nothing: the braces are not the ones that begin with it
      have hlast : Text.holds ['{', '{'] (cut (start + 1) cs).last = true := by
        rw [last_push] at h
        split at h
        · rename_i hrest
          rw [last_of_uncut hrest, first_cut hrest] at h ⊢
          rw [Text.holds, Bool.or_eq_true_iff] at h
          refine h.resolve_left ?_
          intro hbegins
          apply hopen
          cases cs with
          | nil => simp [List.isPrefixOf] at hbegins
          | cons d ds =>
              simp only [List.isPrefixOf, Bool.and_true, Bool.and_eq_true, beq_iff_eq] at hbegins
              exact ⟨hbegins.1.symm, decide_eq_true hbegins.2.symm⟩
        · exact h
      obtain ⟨quote, hquote, hrest⟩ := ih ht.tail hlast
      refine ⟨quote, hquote, ?_⟩
      intro rest k hk
      obtain ⟨chunk, hchunk, hstart, hstop⟩ := hrest rest k hk
      rw [cut_append_of_plain rest ht hopen, List.length_cons]
      exact ⟨chunk, hchunk, by omega, by omega⟩

end Interpolated

-- =================================================== block parameters

namespace Mask

theorem blanks_append {t rest : Text} (h : Bracketed t) :
    blanks (t ++ rest) = blanks t ∧ Bracketed (t.drop (blanks t)) := by
  have hp : CodePoint.isBlank '>' = false := by decide
  unfold blanks
  exact ⟨by rw [h.run_append hp], h.drop (h.run_lt hp)⟩

/-- The word of a block is read in what is bracketed. -/
theorem wordLength?_append {t rest : Text} (h : Bracketed t) :
    wordLength? (t ++ rest) = wordLength? t := by
  have hclean : ∀ w ∈ blockWords, CodePoint.ofChar '>' ∉ w := by decide
  have hfind : blockWords.find? (·.isPrefixOf (t ++ rest)) = blockWords.find? (·.isPrefixOf t) :=
    List.find?_congr fun w hw => h.isPrefixOf_append (hclean w hw)
  unfold wordLength?
  rw [hfind]
  split
  · rfl
  · rw [h.after?_append (by decide)]
    cases helse : Text.after? ['e', 'l', 's', 'e'] t with
    | none => rfl
    | some u =>
        have hu : Bracketed u := h.of_after? (by decide) helse
        obtain ⟨hblanks, hdrop⟩ := @blanks_append u rest hu
        have hle : blanks u ≤ u.length := Markup.length_takeWhile_le _ u
        show (Text.after? ['i', 'f'] ((u ++ rest).drop (blanks (u ++ rest))) >>= fun _ => _)
          = (Text.after? ['i', 'f'] (u.drop (blanks u)) >>= fun _ => _)
        rw [hblanks, List.drop_append_of_le_length hle, hdrop.after?_append (by decide)]
        cases Text.after? ['i', 'f'] (u.drop (blanks u)) <;> rfl

/-- Behind a word of a block such a text goes on. -/
theorem drop_wordLength? {t : Text} {n : Nat} (h : Bracketed t) (hn : wordLength? t = some n) :
    Bracketed (t.drop n) := by
  unfold wordLength? at hn
  split at hn
  · rename_i w hw
    obtain rfl := Option.some.inj hn
    have hclean : ∀ w ∈ blockWords, CodePoint.ofChar '>' ∉ w := by decide
    refine h.of_after? (hclean w (List.mem_of_find?_eq_some hw)) ?_
    unfold Text.after?
    rw [if_pos (List.find?_some hw)]
  · simp only [Option.bind_eq_bind, Option.bind_eq_some_iff] at hn
    obtain ⟨u, hu, v, hv, hn⟩ := hn
    split at hn
    · cases hn
    · obtain rfl := Option.some.inj hn
      have hbu : Bracketed u := h.of_after? (by decide) hu
      have hbv : Bracketed v := (@blanks_append u [] hbu).2.of_after? (by decide) hv
      have hdrop : t.drop (blanks u + 6) = v := by
        obtain rfl := Text.after?_eq_some.1 hu
        have hrest := Text.after?_eq_some.1 hv
        calc List.drop (blanks u + 6) (_ ++ u)
            = u.drop (blanks u + 2) := rfl
          _ = (u.drop (blanks u)).drop 2 := by rw [List.drop_drop]
          _ = v := by rw [hrest]; rfl
      rwa [hdrop]

/-- The opening of a block is read in what is bracketed. -/
theorem openingLength?_append {t rest : Text} (h : Bracketed t) :
    openingLength? (t ++ rest) = openingLength? t := by
  unfold openingLength?
  rw [h.after?_append (by decide)]
  cases hat : Text.after? ['@'] t with
  | none => rfl
  | some u =>
      have hu : Bracketed u := h.of_after? (by decide) hat
      show (wordLength? (u ++ rest) >>= fun word => _) = (wordLength? u >>= fun word => _)
      rw [wordLength?_append hu]
      cases hword : wordLength? u with
      | none => rfl
      | some n =>
          have hdrop : Bracketed (u.drop n) := drop_wordLength? hu hword
          have hle : n ≤ u.length := by
            have hpos := hdrop.pos
            rw [List.length_drop] at hpos
            omega
          obtain ⟨hblanks, hgap⟩ := @blanks_append (u.drop n) rest hdrop
          have hle' : n + blanks (u.drop n) ≤ u.length := by
            have hpos := hgap.pos
            rw [List.length_drop, List.length_drop] at hpos
            omega
          show (if Text.starts '(' ((u ++ rest).drop (n + blanks ((u ++ rest).drop n))) then _ else _)
            = if Text.starts '(' (u.drop (n + blanks (u.drop n))) then _ else _
          rw [List.drop_append_of_le_length hle, hblanks, List.drop_append_of_le_length hle',
            (show Bracketed (u.drop (n + blanks (u.drop n))) by rwa [List.drop_drop] at hgap).starts_append]

/-- An opening ends inside the text. -/
theorem openingLength?_bounds {t : Text} {n : Nat} (h : openingLength? t = some n) :
    2 ≤ n ∧ n ≤ t.length := by
  unfold openingLength? at h
  simp only [Option.bind_eq_bind, Option.bind_eq_some_iff] at h
  obtain ⟨u, hu, w, -, h⟩ := h
  split at h
  · rename_i hparen
    obtain rfl := Option.some.inj h
    obtain rfl := Text.after?_eq_some.1 hu
    have hlt : 0 < (u.drop (w + blanks (u.drop w))).length := Markup.starts_pos hparen
    rw [List.length_drop] at hlt
    rw [List.length_append, List.length_singleton]
    omega
  · cases h

/-- What is bracketed does not end with an opening. -/
theorem openingLength?_lt {t : Text} {n : Nat} (ht : Bracketed t) (h : openingLength? t = some n) :
    n < t.length := by
  unfold openingLength? at h
  simp only [Option.bind_eq_bind, Option.bind_eq_some_iff] at h
  obtain ⟨u, hu, w, hw, h⟩ := h
  split at h
  · rename_i hparen
    obtain rfl := Option.some.inj h
    have hgap := (@blanks_append _ [] (drop_wordLength? (ht.of_after? (by decide) hu) hw)).2
    obtain rfl := Text.after?_eq_some.1 hu
    rw [List.drop_drop] at hgap
    have hlength : 1 < (u.drop (w + blanks (u.drop w))).length := by
      cases hv : u.drop (w + blanks (u.drop w)) with
      | nil => rw [hv] at hparen; cases hparen
      | cons x xs =>
          rw [hv] at hparen hgap
          have hx : x = '(' := by simpa [Text.starts] using hparen
          exact Nat.succ_lt_succ (hgap.tail (by rw [hx]; decide)).pos
    rw [List.length_drop] at hlength
    rw [List.length_append, List.length_singleton]
    omega
  · cases h

/-- Parameters end before a closing parenthesis. -/
theorem paramsLength?_lt {t : Text} {n : Nat} (h : paramsLength? t = some n) : n < t.length := by
  obtain ⟨s, hstop⟩ := Quoted.exists_stop_of_find h
  have hlength : 0 < (t.drop n).length := by
    match hdrop : t.drop n with
    | [] => rw [hdrop] at hstop; cases hstop
    | c :: cs => exact Nat.succ_pos _
  rw [List.length_drop] at hlength
  omega

/-- A span further to the right. -/
def shiftSpan (d : Nat) (s : Nat × Nat) : Nat × Nat := (s.1 + d, s.2 + d)

/-- Stretches of parameters move with the text. -/
theorem blockSpans_add (offset d : Nat) (t : Text) :
    blockSpans (offset + d) t = (blockSpans offset t).map (shiftSpan d) := by
  fun_induction blockSpans offset t with
  | case1 offset => rw [blockSpans]; rfl
  | case2 offset c cs n hopen rest k hk ih =>
      rw [blockSpans, hopen]
      dsimp only
      rw [hk, Nat.add_right_comm offset d 1, Nat.add_right_comm (offset + 1) d (n - 1), ih,
        Nat.add_right_comm offset d n]
      dsimp only
      rw [Nat.add_right_comm (offset + n) d k]
      rfl
  | case3 offset c cs n hopen rest hk ih =>
      rw [blockSpans, hopen]
      dsimp only
      rw [hk, Nat.add_right_comm offset d 1, Nat.add_right_comm (offset + 1) d (n - 1), ih]
  | case4 offset c cs hopen ih =>
      rw [blockSpans, hopen]
      dsimp only
      rw [Nat.add_right_comm offset d 1, ih]

/-- Where the spans of parameters begin and end. -/
theorem blockSpans_bounds {offset : Nat} {t : Text} : ∀ s ∈ blockSpans offset t,
    offset < s.1 ∧ s.2 < offset + t.length := by
  fun_induction blockSpans offset t with
  | case1 offset => nofun
  | case2 offset c cs n hopen rest k hk ih =>
      have hbetween := openingLength?_bounds hopen
      have hlt := paramsLength?_lt hk
      rw [List.length_drop] at hlt
      intro s hs
      rw [List.length_cons]
      rcases List.mem_cons.1 hs with rfl | hs
      · dsimp only
        omega
      · have hbounds := ih s hs
        rw [List.length_drop] at hbounds
        omega
  | case3 offset c cs n hopen rest hk ih =>
      intro s hs
      have hbounds := ih s hs
      have hbetween := openingLength?_bounds hopen
      rw [List.length_cons] at hbetween ⊢
      rw [List.length_drop] at hbounds
      omega
  | case4 offset c cs hopen ih =>
      intro s hs
      have hbounds := ih s hs
      rw [List.length_cons]
      omega

theorem parenStep_append (depth : Nat) (c : CodePoint) (cs rest : Text) :
    parenStep depth (c :: cs ++ rest) = parenStep depth (c :: cs) := rfl

/-- An opening in a text is one in the longer text. -/
theorem opening_append {c : CodePoint} {cs : Text} {n : Nat} (rest : Text) (ht : Clipped (c :: cs))
    (h : openingLength? (c :: cs) = some n) :
    openingLength? (c :: (cs ++ rest)) = some n
      ∧ (cs ++ rest).drop (n - 1) = cs.drop (n - 1) ++ rest
      ∧ 1 + (n - 1) + (cs.drop (n - 1)).length = (c :: cs).length := by
  have hbetween := openingLength?_bounds h
  rw [List.length_cons] at hbetween
  refine ⟨?_, ?_, ?_⟩
  · rw [← h]
    exact openingLength?_append ht.bracketed
  · exact List.drop_append_of_le_length (by omega)
  · rw [List.length_drop, List.length_cons]
    omega

/-- Parameters whose search ends inside such a text are as long whatever
follows. -/
theorem paramsLength?_append {t : Text} (rest : Text) (ht : Clipped t)
    (h : Quoted.exit? codeQuotes parenStep 0 none t = none) :
    paramsLength? (t ++ rest) = paramsLength? t := by
  have hfind : Quoted.find codeQuotes parenStep 0 none (t ++ rest) = _ :=
    Quoted.find_append rest (fun s c cs _ => parenStep_append s c cs rest) 0 none ht
  rwa [h] at hfind

/-- What stands behind each opening of block parameters. -/
def behindOpenings : Text → List Text
  | [] => []
  | c :: cs =>
      match openingLength? (c :: cs) with
      | some n => cs.drop (n - 1) :: behindOpenings (cs.drop (n - 1))
      | none => behindOpenings cs
termination_by t => t.length
decreasing_by all_goals (simp only [List.length_cons, List.length_drop]; omega)

/-- When the parameters in a text are settled, those of the text behind it
are found by themselves. -/
theorem blockSpans_append {offset : Nat} {t : Text} (rest : Text) (ht : Clipped t)
    (h : ∀ u ∈ behindOpenings t, Quoted.exit? codeQuotes parenStep 0 none u = none) :
    blockSpans offset (t ++ rest) = blockSpans offset t ++ blockSpans (offset + t.length) rest := by
  fun_induction blockSpans offset t with
  | case1 offset => rfl
  | case2 offset c cs n hopen spans k hk ih =>
      obtain ⟨hopen', hdrop, hlength⟩ := opening_append rest ht hopen
      rw [behindOpenings, hopen] at h
      dsimp only at h
      have hparams := paramsLength?_append rest (ht.tail.drop (n - 1)) (h _ (by simp))
      have hrest := ih (ht.tail.drop _) fun u hu => h u (by simp [hu])
      rw [List.cons_append, blockSpans, hopen']
      dsimp only
      rw [hdrop, hparams, hk, hrest, ← hlength]
      simp only [List.cons_append, Nat.add_assoc, spans]
  | case3 offset c cs n hopen spans hk ih =>
      obtain ⟨hopen', hdrop, hlength⟩ := opening_append rest ht hopen
      rw [behindOpenings, hopen] at h
      dsimp only at h
      have hparams := paramsLength?_append rest (ht.tail.drop (n - 1)) (h _ (by simp))
      have hrest := ih (ht.tail.drop _) fun u hu => h u (by simp [hu])
      rw [List.cons_append, blockSpans, hopen']
      dsimp only
      rw [hdrop, hparams, hk, hrest, ← hlength]
      simp only [Nat.add_assoc, spans]
  | case4 offset c cs hopen ih =>
      have hopen' : openingLength? (c :: (cs ++ rest)) = none := by
        rw [← hopen]
        exact openingLength?_append ht.bracketed
      rw [behindOpenings, hopen] at h
      rw [List.cons_append, blockSpans, hopen']
      dsimp only at h ⊢
      rw [ih ht.tail h, List.length_cons, Nat.add_assoc, Nat.add_comm 1]

/-- Parameters that do not end in a text are left in some state, and a text
that ends them from this state makes them a span, beyond the end of the
first. -/
theorem exists_span_of_open {offset : Nat} {t u : Text} {state : Nat × Option CodePoint}
    (ht : Clipped t) (hu : u ∈ behindOpenings t)
    (h : Quoted.exit? codeQuotes parenStep 0 none u = some state) (rest : Text) {n : Nat}
    (hn : Quoted.find codeQuotes parenStep state.1 state.2 rest = some n) :
    ∃ s ∈ blockSpans offset (t ++ rest),
      s.1 < offset + t.length ∧ offset + t.length ≤ s.2 := by
  fun_induction behindOpenings t generalizing offset with
  | case1 => cases hu
  | case2 c cs k hopen ih =>
      obtain ⟨hopen', hdrop, hlength⟩ := opening_append rest ht hopen
      have hlt := openingLength?_lt ht.bracketed hopen
      have htwo := (openingLength?_bounds hopen).1
      rw [List.cons_append, blockSpans, hopen']
      dsimp only
      rw [hdrop]
      rw [List.length_cons] at hlength hlt ⊢
      rcases List.mem_cons.1 hu with rfl | hu
      · -- the parameters are still open at the end of the text and close in the rest
        have hparams : paramsLength? (cs.drop (k - 1) ++ rest)
            = some (n + (cs.drop (k - 1)).length) := by
          have hfind : Quoted.find codeQuotes parenStep 0 none (cs.drop (k - 1) ++ rest) = _ :=
            Quoted.find_append rest (fun s c cs _ => parenStep_append s c cs rest) 0 none
              (ht.tail.drop (k - 1))
          rw [h] at hfind
          refine hfind.trans ?_
          show (Quoted.find codeQuotes parenStep state.1 state.2 rest).map _ = _
          rw [hn]
          rfl
        rw [hparams]
        refine ⟨_, List.mem_cons_self, ?_, ?_⟩
        · dsimp only
          omega
        · dsimp only
          omega
      · obtain ⟨s, hs, hstart, hstop⟩ := @ih (offset + 1 + (k - 1)) (ht.tail.drop _) hu
        refine ⟨s, ?_, by omega, by omega⟩
        split
        · exact List.mem_cons_of_mem _ hs
        · exact hs
  | case3 c cs hopen ih =>
      have hopen' : openingLength? (c :: (cs ++ rest)) = none := by
        rw [← hopen]
        exact openingLength?_append ht.bracketed
      obtain ⟨s, hs, hstart, hstop⟩ := @ih (offset + 1) ht.tail hu
      rw [List.cons_append, blockSpans, hopen', List.length_cons]
      exact ⟨s, hs, by omega, by omega⟩

end Mask

/-- The searches for the end of code come to an end inside a text: every
`{{` has its `}}`, and of all parameters of blocks it is known where they
end, or that they do not. -/
structure Settled (t : Text) : Prop where
  code : Text.holds ['{', '{'] (Interpolated.cut 0 t).last = false
  params : ∀ u ∈ Mask.behindOpenings t, Quoted.exit? codeQuotes Mask.parenStep 0 none u = none

instance (t : Text) : Decidable (Settled t) :=
  decidable_of_iff (_ ∧ _) ⟨fun h => ⟨h.1, h.2⟩, fun h => ⟨h.code, h.params⟩⟩

end KeyHarvest
