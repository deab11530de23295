/-
What is masked. Masking looks for code in the text as it is written,
before anything is known of tags and comments, and so code that begins in
one part of a text may end in another. A settled text is masked by itself,
and what stands behind it is masked by itself, too (`mask_append`). A
comment stays a comment then (`commentLength?_mask`).
-/
import KeyHarvest.Proofs.Markup.Search

namespace KeyHarvest

open Markup (Bracketed Clipped)

namespace Mask

-- ============================================================== spans

/-- The stretches of code are those of the chunks that the text is cut into.
-/
theorem codeSpans_eq (t : Text) :
    codeSpans t
      = (Interpolated.cut 0 t).chunks.map fun c => (c.offset, c.offset + c.code.length) := by
  unfold codeSpans Interpolated.split
  by_cases hrest : (Interpolated.cut 0 t).rest.isEmpty = true
  · rw [if_pos hrest]
    unfold Interpolated.chunks
    rw [List.isEmpty_iff.1 hrest]
    rfl
  · rw [if_neg hrest]

/-- No span begins at the start of a text, and none goes up to its end. -/
theorem spans_bounds {t : Text} : ∀ s ∈ spans t, 0 < s.1 ∧ s.2 < t.length := by
  intro s hs
  rcases List.mem_append.1 hs with hs | hs
  · rw [codeSpans_eq] at hs
    obtain ⟨c, hc, rfl⟩ := List.mem_map.1 hs
    have hbounds := Interpolated.chunks_cut_bounds c hc
    dsimp only
    omega
  · have hbounds := blockSpans_bounds s hs
    omega

theorem covered_append (ss ts : List (Nat × Nat)) (i : Nat) :
    covered (ss ++ ts) i = (covered ss i || covered ts i) := by
  unfold covered
  rw [List.any_append]

theorem covered_shift (ss : List (Nat × Nat)) (d i : Nat) :
    covered (ss.map (shiftSpan d)) (i + d) = covered ss i := by
  unfold covered
  rw [List.any_map]
  congr 1
  funext s
  simp [shiftSpan]

/-- An offset that lies in none of several spans. -/
theorem not_covered {ss : List (Nat × Nat)} {i : Nat} (h : ∀ s ∈ ss, i < s.1 ∨ s.2 ≤ i) :
    covered ss i = false := by
  unfold covered
  rw [List.any_eq_false]
  intro s hs
  have hout := h s hs
  simp only [Bool.and_eq_true, decide_eq_true_eq]
  omega

theorem not_covered_zero (t : Text) : covered (spans t) 0 = false :=
  not_covered fun s hs => .inl (spans_bounds s hs).1

/-- A place inside a stretch is covered. -/
theorem covered_of_mem {ss : List (Nat × Nat)} {s : Nat × Nat} {i : Nat} (hs : s ∈ ss)
    (hstart : s.1 ≤ i) (hstop : i < s.2) : covered ss i = true := by
  unfold covered
  rw [List.any_eq_true]
  exact ⟨s, hs, by simp [hstart, hstop]⟩

/-- The spans of a settled text, and of what stands behind it. -/
theorem covered_spans_append {t : Text} (rest : Text) (ht : Clipped t) (h : Settled t) (i : Nat) :
    covered (spans (t ++ rest)) i
      = (covered (spans t) i || covered ((spans rest).map (shiftSpan t.length)) i) := by
  have hcode : codeSpans (t ++ rest) = codeSpans t ++ (codeSpans rest).map (shiftSpan t.length) := by
    rw [codeSpans_eq, codeSpans_eq, codeSpans_eq, Interpolated.chunks_cut_append rest ht h.code,
      Interpolated.chunks_cut_add, List.map_append, List.map_map, List.map_map]
    congr 2
    funext c
    simp only [Function.comp, shiftSpan]
    rw [Nat.add_right_comm]
  unfold spans
  rw [hcode, blockSpans_append rest ht h.params, blockSpans_add, List.map_append]
  simp only [covered_append]
  cases covered (codeSpans t) i <;> cases covered (blockSpans 0 t) i <;> simp

-- ============================================================ masking

/-- Masking depends on which offsets are covered, and on nothing else. -/
theorem blankOut_congr {ss ts : List (Nat × Nat)} {offset offset' : Nat} {t : Text}
    (h : ∀ i, i < t.length → covered ss (offset + i) = covered ts (offset' + i)) :
    blankOut ss offset t = blankOut ts offset' t := by
  induction t generalizing offset offset' with
  | nil => rfl
  | cons c cs ih =>
      have hhead := h 0 (Nat.succ_pos _)
      rw [Nat.add_zero, Nat.add_zero] at hhead
      rw [blankOut, blankOut, hhead, ih]
      intro i hi
      have htail := h (i + 1) (Nat.succ_lt_succ hi)
      rwa [Nat.add_comm i, ← Nat.add_assoc, ← Nat.add_assoc] at htail

theorem blankOut_append (ss : List (Nat × Nat)) (offset : Nat) (t u : Text) :
    blankOut ss offset (t ++ u) = blankOut ss offset t ++ blankOut ss (offset + t.length) u := by
  induction t generalizing offset with
  | nil => rfl
  | cons c cs ih =>
      rw [List.cons_append, blankOut, blankOut, ih, List.cons_append, List.length_cons,
        Nat.add_assoc, Nat.add_comm 1]

/-- Blanking out keeps the length. -/
theorem length_blankOut (ss : List (Nat × Nat)) (offset : Nat) (t : Text) :
    (blankOut ss offset t).length = t.length := by
  induction t generalizing offset with
  | nil => rfl
  | cons c cs ih => rw [blankOut, List.length_cons, List.length_cons, ih]

end Mask

/-- A text without brackets stays as it is. -/
theorem Mask.blankOut_of_unbracketed {ss : List (Nat × Nat)} {offset : Nat} {t : Text}
    (h : ∀ c ∈ t, c ≠ '<' ∧ c ≠ '>') : blankOut ss offset t = t := by
  induction t generalizing offset with
  | nil => rfl
  | cons c cs ih =>
      have hc := h c (by simp)
      rw [blankOut, ih fun d hd => h d (by simp [hd])]
      simp [hc.1, hc.2]

/-- Masking keeps the length. -/
theorem length_mask (t : Text) : (mask t).length = t.length := Mask.length_blankOut _ 0 t

/-- A settled text and what stands behind it are masked by themselves. -/
theorem mask_append {t : Text} (rest : Text) (ht : Clipped t) (h : Settled t) :
    mask (t ++ rest) = mask t ++ mask rest := by
  unfold mask
  rw [Mask.blankOut_append]
  congr 1
  · apply Mask.blankOut_congr
    intro i hi
    have hbehind : Mask.covered ((Mask.spans rest).map (Mask.shiftSpan t.length)) (0 + i)
        = false := by
      apply Mask.not_covered
      intro s hs
      obtain ⟨r, -, rfl⟩ := List.mem_map.1 hs
      simp only [Mask.shiftSpan]
      omega
    rw [Mask.covered_spans_append rest ht h, hbehind, Bool.or_false]
  · apply Mask.blankOut_congr
    intro i hi
    have hbefore : Mask.covered (Mask.spans t) (0 + t.length + i) = false := by
      apply Mask.not_covered
      intro s hs
      have hbounds := Mask.spans_bounds s hs
      omega
    rw [Mask.covered_spans_append rest ht h, hbefore, Bool.false_or,
      show 0 + t.length + i = (0 + i) + t.length by omega, Mask.covered_shift]

-- ========================================================= completion

namespace Mask

/-- What ends quotations, code and parameters. -/
def closers : Text := codeQuotes ++ [CodePoint.ofChar '}', CodePoint.ofChar ')']

/-- Parameters end when all open parentheses are closed. -/
theorem find_parenStep_replicate (depth : Nat) :
    Quoted.find codeQuotes parenStep depth none (List.replicate (depth + 1) (CodePoint.ofChar ')'))
      = some depth := by
  induction depth with
  | zero => rfl
  | succ depth ih =>
      rw [List.replicate_succ, Quoted.find_outside (by decide)]
      show (Quoted.find codeQuotes parenStep depth none
        (List.replicate (depth + 1) (CodePoint.ofChar ')'))).map (· + 1) = _
      rw [ih]
      rfl

/-- Code that begins in a text and does not end in it reaches beyond the
last code point of the text when closers follow. -/
theorem exists_closers {t : Text} (ht : Bracketed t) (h : ¬ Settled t) :
    ∃ rest : Text, rest ≠ [] ∧ (∀ c ∈ rest, c ∈ closers)
      ∧ covered (spans (t ++ rest)) (t.length - 1) = true := by
  have hpos := ht.pos
  -- a quotation that is open is closed first
  have hquotes : ∀ {quote : Option CodePoint} {mark : Text}, (∀ c ∈ quote, c ∈ codeQuotes) →
      (∀ c ∈ mark, c ∈ closers) → ∀ c ∈ quote.toList ++ mark, c ∈ closers := by
    intro quote mark hquote hmark c hc
    rcases List.mem_append.1 hc with hc | hc
    · exact List.mem_append_left _ (hquote c (Option.mem_toList.1 hc))
    · exact hmark c hc
  have hescape : ∀ c ∈ codeQuotes, c ≠ '\\' := by decide
  by_cases hcode : Text.holds ['{', '{'] (Interpolated.cut 0 t).last = true
  · obtain ⟨quote, hquote, hrest⟩ := Interpolated.exists_chunk_of_open (.inr ht) hcode
    have hfind : Quoted.find codeQuotes Interpolated.endStep () quote
        (quote.toList ++ [CodePoint.ofChar '}', CodePoint.ofChar '}']) = _ :=
      Quoted.find_of_quote (fun c hc => hescape c (hquote c hc)) _
    obtain ⟨chunk, hchunk, hstart, hstop⟩ := hrest _ _ hfind
    refine ⟨quote.toList ++ [CodePoint.ofChar '}', CodePoint.ofChar '}'], by simp,
      hquotes hquote (by decide), ?_⟩
    have hmem : (chunk.offset, chunk.offset + chunk.code.length)
        ∈ spans (t ++ (quote.toList ++ [CodePoint.ofChar '}', CodePoint.ofChar '}'])) := by
      apply List.mem_append_left
      rw [codeSpans_eq]
      exact List.mem_map.2 ⟨chunk, hchunk, rfl⟩
    exact covered_of_mem hmem (by dsimp only; omega) (by dsimp only; omega)
  · obtain ⟨u, hu, hexit⟩ : ∃ u ∈ behindOpenings t,
        Quoted.exit? codeQuotes parenStep 0 none u ≠ none := by
      by_cases hall : ∀ u ∈ behindOpenings t, Quoted.exit? codeQuotes parenStep 0 none u = none
      · exact absurd ⟨by simpa using hcode, hall⟩ h
      · simpa using hall
    obtain ⟨⟨depth, quote⟩, hstate⟩ := Option.ne_none_iff_exists'.1 hexit
    have hquote := Quoted.mem_quotes_of_exit? (by simp) hstate
    have hfind : Quoted.find codeQuotes parenStep depth quote
        (quote.toList ++ List.replicate (depth + 1) (CodePoint.ofChar ')')) = _ :=
      Quoted.find_of_quote (fun c hc => hescape c (hquote c hc)) _
    rw [find_parenStep_replicate] at hfind
    obtain ⟨s, hs, hstart, hstop⟩ := exists_span_of_open (.inr ht) hu hstate _ hfind
    refine ⟨quote.toList ++ List.replicate (depth + 1) (CodePoint.ofChar ')'), by simp,
      hquotes hquote ?_, ?_⟩
    · intro c hc
      rw [List.eq_of_mem_replicate hc]
      decide
    · exact covered_of_mem (List.mem_append_right _ hs) (by omega) (by omega)

end Mask

-- ============================================================ no code

namespace Mask

theorem blankOut_nil (offset : Nat) (t : Text) : blankOut [] offset t = t := by
  induction t generalizing offset with
  | nil => rfl
  | cons c cs ih =>
      rw [blankOut, ih]
      simp [covered]

/-- Without an at sign no parameters open. -/
theorem openingLength?_of_not_mem {t : Text} (h : CodePoint.ofChar '@' ∉ t) :
    openingLength? t = none := by
  cases hopen : openingLength? t with
  | none => rfl
  | some n =>
      unfold openingLength? at hopen
      simp only [Option.bind_eq_bind, Option.bind_eq_some_iff] at hopen
      obtain ⟨u, hu, -⟩ := hopen
      rw [Text.after?_eq_some.1 hu] at h
      exact absurd List.mem_cons_self h

/-- Without an at sign there are no parameters to mask. -/
theorem blockSpans_of_not_mem {t : Text} (offset : Nat) (h : CodePoint.ofChar '@' ∉ t) :
    blockSpans offset t = [] := by
  induction t generalizing offset with
  | nil => rw [blockSpans]
  | cons c cs ih =>
      rw [blockSpans, openingLength?_of_not_mem h]
      exact ih (offset + 1) fun hmem => h (List.mem_cons_of_mem c hmem)

/-- Without an at sign nothing stands behind an opening. -/
theorem behindOpenings_of_not_mem {t : Text} (h : CodePoint.ofChar '@' ∉ t) :
    behindOpenings t = [] := by
  induction t with
  | nil => rw [behindOpenings]
  | cons c cs ih =>
      rw [behindOpenings, openingLength?_of_not_mem h]
      exact ih fun hmem => h (List.mem_cons_of_mem c hmem)

end Mask

/-- A text without code is not changed. -/
theorem mask_of_uncoded {t : Text} (hcode : Text.holds ['{', '{'] t = false)
    (hblock : CodePoint.ofChar '@' ∉ t) : mask t = t := by
  have hspans : Mask.spans t = [] := by
    unfold Mask.spans
    rw [Mask.codeSpans_eq, Interpolated.cut_of_unopened hcode, Mask.blockSpans_of_not_mem 0 hblock]
    rfl
  unfold mask
  rw [hspans, Mask.blankOut_nil]

-- =========================================================== comments

namespace Markup

/-- A comment ends with its last bracket. -/
theorem bracketed_of_commentTail {dashes : Nat} {t : Text}
    (h : commentTail dashes t = some t.length) : Bracketed t := by
  induction t generalizing dashes with
  | nil => cases h
  | cons c cs ih =>
      rw [commentTail, List.length_cons] at h
      have htail : ∀ {dashes'}, (commentTail dashes' cs).map (· + 1) = some (cs.length + 1) →
          Bracketed (c :: cs) := by
        intro dashes' hmap
        obtain ⟨k, hk, hlength⟩ := Option.map_eq_some_iff.1 hmap
        obtain rfl : k = cs.length := Nat.succ.inj hlength
        have hcs := ih hk
        cases cs with
        | nil => cases hk
        | cons d ds => exact hcs
      split at h
      · cases h
      · split at h
        · exact htail h
        · split at h
          · rename_i hend
            have hnil : cs = [] := by
              have hlength := Option.some.inj h
              rw [← List.length_eq_zero_iff]
              omega
            rw [hnil, hend.1]
            rfl
          · exact htail h

/-- A text that is one comment. -/
theorem eq_of_comment {m : Text} (h : commentLength? m = some m.length) :
    ∃ body, m = commentOpening ++ body ∧ commentTail 0 body = some body.length := by
  obtain ⟨body, k, rfl, hk, hlength⟩ := commentLength?_eq_some.1 h
  obtain rfl : k = body.length := by
    rw [List.length_append, show commentOpening.length = 4 from rfl] at hlength
    omega
  exact ⟨body, rfl, hk⟩

/-- A comment ends with an angle bracket. -/
theorem bracketed_of_comment {m : Text} (h : commentLength? m = some m.length) : Bracketed m := by
  obtain ⟨body, rfl, hbody⟩ := eq_of_comment h
  have hlast := bracketed_of_commentTail hbody
  unfold Bracketed at hlast ⊢
  rw [List.getLast?_append, hlast]
  rfl

/-- A blank in a comment is passed over. -/
theorem commentTail_blank (dashes : Nat) (t : Text) :
    commentTail dashes (CodePoint.ofChar ' ' :: t) = (commentTail 0 t).map (· + 1) := by
  rw [commentTail, if_neg (by decide), if_neg (by decide), if_neg (by simp)]

/-- What is masked inside a comment does not change where it ends, and if
its last bracket is masked, it goes on. -/
theorem commentTail_blankOut {ss : List (Nat × Nat)} {dashes offset : Nat} {t : Text} (rest : Text)
    (h : commentTail dashes t = some t.length) :
    commentTail dashes (Mask.blankOut ss offset t ++ rest)
      = if Mask.covered ss (offset + t.length - 1) then (commentTail 0 rest).map (· + t.length)
        else some t.length := by
  induction t generalizing dashes offset with
  | nil => cases h
  | cons c cs ih =>
      rw [List.length_cons] at h ⊢
      -- what a step over one code point leaves to the induction
      have htail : ∀ {dashes'}, (commentTail dashes' cs).map (· + 1) = some (cs.length + 1) →
          (commentTail dashes' (Mask.blankOut ss (offset + 1) cs ++ rest)).map (· + 1)
            = if Mask.covered ss (offset + (cs.length + 1) - 1) then
                (commentTail 0 rest).map (· + (cs.length + 1))
              else some (cs.length + 1) := by
        intro dashes' hmap
        obtain ⟨k, hk, hlength⟩ := Option.map_eq_some_iff.1 hmap
        obtain rfl : k = cs.length := Nat.succ.inj hlength
        rw [ih hk, show offset + 1 + cs.length - 1 = offset + (cs.length + 1) - 1 by omega]
        split
        · rw [Option.map_map]
          rfl
        · rfl
      rw [commentTail] at h
      rw [Mask.blankOut, List.cons_append]
      by_cases hzero : c.val = 0
      · rw [if_pos hzero] at h
        cases h
      rw [if_neg hzero] at h
      by_cases hdash : c = '-'
      · rw [if_pos hdash] at h
        -- a dash is no bracket, so it is not blanked out
        have hkept : ¬ ((c = '<' ∨ c = '>') ∧ Mask.covered ss offset = true) := by
          rw [hdash]
          simp
        rw [if_neg hkept, commentTail, if_neg hzero, if_pos hdash]
        exact htail h
      rw [if_neg hdash] at h
      by_cases hend : c = '>' ∧ 2 ≤ dashes
      · rw [if_pos hend] at h
        -- the bracket that ends the comment is the last code point of the text
        obtain rfl : cs = [] := by
          have hlength := Option.some.inj h
          rw [← List.length_eq_zero_iff]
          omega
        by_cases hcovered : Mask.covered ss offset = true
        · rw [if_pos ⟨.inr hend.1, hcovered⟩, commentTail_blank]
          exact (if_pos hcovered).symm
        · rw [if_neg fun hboth => hcovered hboth.2, commentTail, if_neg hzero, if_neg hdash,
            if_pos hend]
          exact (if_neg hcovered).symm
      · rw [if_neg hend] at h
        split
        · rw [commentTail_blank]
          exact htail h
        · rw [commentTail, if_neg hzero, if_neg hdash, if_neg hend]
          exact htail h

/-- Without a bracket no comment ends. -/
theorem commentTail_of_not_mem {t : Text} (dashes : Nat) (h : CodePoint.ofChar '>' ∉ t) :
    commentTail dashes t = none := by
  induction t generalizing dashes with
  | nil => rfl
  | cons c cs ih =>
      have hcs : CodePoint.ofChar '>' ∉ cs := fun hmem => h (List.mem_cons_of_mem c hmem)
      have hc : ¬ (c = '>' ∧ 2 ≤ dashes) := by
        intro hboth
        exact h (by rw [hboth.1]; exact List.mem_cons_self)
      rw [commentTail, if_neg hc, ih _ hcs, ih _ hcs]
      simp

/-- What opens a comment at the start of a text is not masked. -/
theorem blankOut_opening {ss : List (Nat × Nat)} (hfirst : Mask.covered ss 0 = false) (t : Text) :
    Mask.blankOut ss 0 (commentOpening ++ t) = commentOpening ++ Mask.blankOut ss 4 t := by
  rw [Mask.blankOut_append]
  congr 1
  simp [commentOpening, Mask.blankOut, hfirst]

/-- A comment with brackets masked in it ends where it did, unless its last
bracket is one of them. -/
theorem commentLength?_blankOut {ss : List (Nat × Nat)} {m : Text} (rest : Text)
    (hfirst : Mask.covered ss 0 = false) (h : commentLength? m = some m.length) :
    commentLength? (Mask.blankOut ss 0 m ++ rest)
      = if Mask.covered ss (m.length - 1) then (commentTail 0 rest).map (· + m.length)
        else some m.length := by
  obtain ⟨body, rfl, hbody⟩ := eq_of_comment h
  have hafter : ∀ u, Text.after? commentOpening (commentOpening ++ u) = some u := fun u =>
    Text.after?_eq_some.2 rfl
  have hlength : (commentOpening ++ body).length = 4 + body.length := by
    rw [List.length_append]
    rfl
  unfold commentLength?
  show (Text.after? commentOpening _ >>= fun rest => _) = _
  rw [blankOut_opening hfirst, List.append_assoc, hafter, hlength]
  show (commentTail 0 (Mask.blankOut ss 4 body ++ rest) >>= fun n => some (n + 4)) = _
  rw [commentTail_blankOut rest hbody]
  by_cases hlast : Mask.covered ss (4 + body.length - 1) = true
  · rw [if_pos hlast, if_pos hlast]
    cases commentTail 0 rest with
    | none => rfl
    | some n => exact congrArg some (by dsimp only; omega)
  · rw [if_neg hlast, if_neg hlast]
    exact congrArg some (by omega)

/-- A comment stays one when it is masked. -/
theorem commentLength?_mask {t : Text} (h : commentLength? t = some t.length) :
    commentLength? (mask t) = some (mask t).length := by
  have hpos := (bracketed_of_comment h).pos
  have hlast : Mask.covered (Mask.spans t) (t.length - 1) = false := by
    apply Mask.not_covered
    intro s hs
    have hbounds := Mask.spans_bounds s hs
    omega
  have hlength := commentLength?_blankOut [] (Mask.not_covered_zero t) h
  rw [hlast, List.append_nil] at hlength
  rw [length_mask]
  exact hlength

/-- A comment that is not settled is left open before some closers. -/
theorem exists_closers_of_comment {m : Text} (hm : commentLength? m = some m.length)
    (h : ¬ Settled m) :
    ∃ rest : Text, rest ≠ [] ∧ (∀ c ∈ rest, c ∈ Mask.closers)
      ∧ commentOpening <+: mask (m ++ rest) ∧ commentLength? (mask (m ++ rest)) = none := by
  obtain ⟨rest, hne, hclosers, hcovered⟩ := Mask.exists_closers (bracketed_of_comment hm) h
  refine ⟨rest, hne, hclosers, ?_, ?_⟩
  · obtain ⟨body, rfl, -⟩ := eq_of_comment hm
    unfold mask
    rw [List.append_assoc, blankOut_opening (Mask.not_covered_zero _)]
    exact List.prefix_append _ _
  have hplain : ∀ c ∈ Mask.closers, c ≠ '<' ∧ c ≠ '>' := by decide
  have hrest : commentTail 0 rest = none :=
    commentTail_of_not_mem 0 fun hmem => (hplain _ (hclosers _ hmem)).2 rfl
  unfold mask
  rw [Mask.blankOut_append, Mask.blankOut_of_unbracketed fun c hc => hplain c (hclosers c hc),
    commentLength?_blankOut rest (Mask.not_covered_zero _) hm, if_pos hcovered, hrest]
  rfl

end Markup

end KeyHarvest
