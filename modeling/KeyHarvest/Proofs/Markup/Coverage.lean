/-
Which brackets are masked. What masking looks for can be said without a
search. Block parameters open at an `@` with the word of a block, blanks
and a parenthesis behind it (`Opens`); as there is no second `@` in an
opening, no two of them overlap, and a search that goes on behind each
opening meets them all (`mem_blockSpans`). So a bracket is masked exactly
when it lies in the code of an interpolation or between the parentheses of
a block (`InCode`, `InParams`), and nothing else is changed
(`getElem?_mask`).
-/
import KeyHarvest.Proofs.Markup.Mask

namespace KeyHarvest

namespace Mask

-- ============================================================ openings

/-- A word of a block that takes parameters: one of the list, or `else if`
with any blanks between its parts. -/
def BlockWord (w : Text) : Prop :=
  w ∈ blockWords ∨ ∃ gap : Text, gap ≠ [] ∧ (∀ c ∈ gap, c.isBlank = true)
    ∧ w = (['e', 'l', 's', 'e'] : Text) ++ (gap ++ (['i', 'f'] : Text))

/-- Block parameters open at the start of a text, and their opening is `n`
code points long. -/
def Opens (t : Text) (n : Nat) : Prop :=
  ∃ word gap rest, BlockWord word ∧ (∀ c ∈ gap, c.isBlank = true)
    ∧ t = CodePoint.ofChar '@' :: (word ++ (gap ++ CodePoint.ofChar '(' :: rest))
    ∧ n = word.length + gap.length + 2

theorem blanks_append_cons {gap : Text} {c : CodePoint} {rest : Text}
    (hgap : ∀ d ∈ gap, d.isBlank = true) (hc : c.isBlank = false) :
    blanks (gap ++ c :: rest) = gap.length := by
  rw [blanks, List.takeWhile_append_of_pos hgap, List.takeWhile_cons_of_neg (by simp [hc]),
    List.append_nil]

/-- A text is its leading blanks and what follows. -/
theorem exists_blanks (t : Text) :
    ∃ gap : Text, (∀ c ∈ gap, c.isBlank = true) ∧ gap.length = blanks t
      ∧ t = gap ++ t.drop (blanks t) :=
  ⟨t.takeWhile CodePoint.isBlank, fun _ hc => List.mem_takeWhile_imp hc, rfl, by
    rw [blanks, Markup.drop_length_takeWhile, List.takeWhile_append_dropWhile]⟩

theorem find?_blockWords_append {w : Text} (hw : w ∈ blockWords) (rest : Text) :
    blockWords.find? (·.isPrefixOf (w ++ rest)) = some w := by
  simp only [blockWords, List.mem_cons, List.not_mem_nil, or_false] at hw
  rcases hw with rfl | rfl | rfl | rfl | rfl <;> rfl

/-- A word has a length where a word stands. -/
theorem wordLength?_eq_some {t : Text} {n : Nat} :
    wordLength? t = some n ↔ ∃ w rest, BlockWord w ∧ t = w ++ rest ∧ n = w.length := by
  constructor
  · intro h
    unfold wordLength? at h
    split at h
    · next w hw =>
        have hprefix : w.isPrefixOf t = true := by simpa using List.find?_some hw
        obtain ⟨rest, rfl⟩ := List.isPrefixOf_iff_prefix.1 hprefix
        exact ⟨w, rest, .inl (List.mem_of_find?_eq_some hw), rfl, (Option.some.inj h).symm⟩
    · simp only [Option.bind_eq_bind, Option.bind_eq_some_iff, Text.after?_eq_some] at h
      obtain ⟨u, rfl, rest, hrest, h⟩ := h
      split at h
      · cases h
      · next hne =>
          obtain ⟨gap, hgap, hlength, hu⟩ := exists_blanks u
          refine ⟨_, rest, .inr ⟨gap, ?_, hgap, rfl⟩, ?_, ?_⟩
          · rintro rfl
            exact hne hlength.symm
          · rw [List.append_assoc, List.append_assoc, ← hrest, ← hu]
          · rw [← Option.some.inj h, ← hlength]
            simp only [List.length_append, List.length_cons, List.length_nil]
            omega
  · rintro ⟨w, rest, hw | ⟨gap, hne, hgap, rfl⟩, rfl, rfl⟩
    · rw [wordLength?, find?_blockWords_append hw]
    · have hfind : blockWords.find?
          (·.isPrefixOf ((['e', 'l', 's', 'e'] : Text) ++ (gap ++ (['i', 'f'] : Text)) ++ rest))
            = none := rfl
      have hgap' : blanks (gap ++ ((['i', 'f'] : Text) ++ rest)) = gap.length :=
        blanks_append_cons hgap (by decide)
      have hlength : gap.length ≠ 0 := fun h => hne (List.length_eq_zero_iff.1 h)
      rw [wordLength?, hfind]
      dsimp only
      rw [List.append_assoc, List.append_assoc, Text.after?_eq_some.2 rfl]
      simp only [Option.bind_eq_bind, Option.bind_some, hgap', List.drop_left]
      rw [Text.after?_eq_some.2 rfl, Option.bind_some, if_neg hlength]
      simp only [List.length_append, List.length_cons, List.length_nil]
      congr 1
      omega

/-- The opening that is found at the start of a text is the one that is
there. -/
theorem openingLength?_eq_some {t : Text} {n : Nat} : openingLength? t = some n ↔ Opens t n := by
  constructor
  · intro h
    simp only [openingLength?, Option.bind_eq_bind, Option.bind_eq_some_iff,
      Text.after?_eq_some, wordLength?_eq_some] at h
    obtain ⟨u, rfl, m, ⟨word, rest, hword, rfl, rfl⟩, h⟩ := h
    rw [List.drop_left] at h
    split at h
    · next hparen =>
        obtain ⟨gap, hgap, hlength, hrest⟩ := exists_blanks rest
        rw [List.drop_length_add_append] at hparen
        cases hdrop : rest.drop (blanks rest) with
        | nil => rw [hdrop] at hparen; cases hparen
        | cons c cs =>
            rw [hdrop] at hparen
            obtain rfl : c = '(' := by simpa [Text.starts] using hparen
            refine ⟨word, gap, cs, hword, hgap, ?_, ?_⟩
            · rw [← hdrop, ← hrest]
              rfl
            · rw [← Option.some.inj h, hlength]
    · cases h
  · rintro ⟨word, gap, rest, hword, hgap, rfl, rfl⟩
    have hfound : wordLength? (word ++ (gap ++ CodePoint.ofChar '(' :: rest)) = some word.length :=
      wordLength?_eq_some.2 ⟨word, _, hword, rfl, rfl⟩
    have hblanks : blanks (gap ++ CodePoint.ofChar '(' :: rest) = gap.length :=
      blanks_append_cons hgap (by decide)
    have hparen : (word ++ (gap ++ CodePoint.ofChar '(' :: rest)).drop (word.length + gap.length)
        = CodePoint.ofChar '(' :: rest := by
      rw [List.drop_length_add_append, List.drop_left]
    rw [openingLength?, Text.after?_eq_some.2 (List.singleton_append).symm]
    simp only [Option.bind_eq_bind, Option.bind_some, hfound, List.drop_left, hblanks, hparen]
    exact if_pos (by simp [Text.starts])

/-- An opening has no `@` in it but the first one. -/
theorem not_opens_inside {t : Text} {n i : Nat} (h : Opens t n) (hpos : 0 < i) (hi : i < n)
    (m : Nat) : ¬ Opens (t.drop i) m := by
  obtain ⟨word, gap, rest, hword, hgap, rfl, rfl⟩ := h
  have hclean : CodePoint.ofChar '@' ∉ word ++ (gap ++ [CodePoint.ofChar '(']) := by
    have hgap' : CodePoint.ofChar '@' ∉ gap := fun hmem => absurd (hgap _ hmem) (by decide)
    have hword' : CodePoint.ofChar '@' ∉ word := by
      rcases hword with hword | ⟨between, -, hbetween, rfl⟩
      · have hall : ∀ w ∈ blockWords, CodePoint.ofChar '@' ∉ w := by decide
        exact hall word hword
      · have hmid : CodePoint.ofChar '@' ∉ between := fun hmem =>
          absurd (hbetween _ hmem) (by decide)
        simp [hmid]
    simp [hword', hgap']
  rintro ⟨word', gap', rest', -, -, ht, -⟩
  obtain ⟨j, rfl⟩ : ∃ j, i = j + 1 := ⟨i - 1, by omega⟩
  have hsplit : word ++ (gap ++ CodePoint.ofChar '(' :: rest)
      = (word ++ (gap ++ [CodePoint.ofChar '('])) ++ rest := by simp
  have hj : j < (word ++ (gap ++ [CodePoint.ofChar '('])).length := by
    simp only [List.length_append, List.length_singleton]
    omega
  rw [List.drop_succ_cons, hsplit, List.drop_append_of_le_length hj.le,
    List.drop_eq_getElem_cons hj, List.cons_append] at ht
  exact hclean ((List.cons.inj ht).1 ▸ List.getElem_mem hj)

-- =============================================================== spans

/-- Block parameters stand in a text: their opening begins at `start` and
is `n` code points long, and `k` code points follow up to the parenthesis
that closes them. -/
def ParamsAt (t : Text) (start n k : Nat) : Prop :=
  Opens (t.drop start) n ∧ paramsLength? (t.drop (start + n)) = some k

/-- Behind an opening the search goes on as in the rest of the text. -/
theorem paramsAt_of_opens {t : Text} {m : Nat} (h : openingLength? t = some m)
    {start n k : Nat} :
    ParamsAt t start n k
      ↔ start = 0 ∧ n = m ∧ paramsLength? (t.drop m) = some k
        ∨ ∃ i, start = m + i ∧ ParamsAt (t.drop m) i n k := by
  constructor
  · rintro ⟨hopens, hparams⟩
    by_cases hstart : start = 0
    · subst hstart
      rw [List.drop_zero, ← openingLength?_eq_some, h] at hopens
      obtain rfl := Option.some.inj hopens
      rw [Nat.zero_add] at hparams
      exact .inl ⟨rfl, rfl, hparams⟩
    · have hle : m ≤ start := by
        by_contra hlt
        exact not_opens_inside (openingLength?_eq_some.1 h) (Nat.pos_of_ne_zero hstart)
          (Nat.lt_of_not_le hlt) n hopens
      obtain ⟨i, rfl⟩ := Nat.exists_eq_add_of_le hle
      rw [← List.drop_drop] at hopens
      rw [Nat.add_assoc, ← List.drop_drop] at hparams
      exact .inr ⟨i, rfl, hopens, hparams⟩
  · rintro (⟨rfl, rfl, hparams⟩ | ⟨i, rfl, hopens, hparams⟩)
    · refine ⟨openingLength?_eq_some.1 h, ?_⟩
      rwa [Nat.zero_add]
    · rw [List.drop_drop] at hopens hparams
      exact ⟨hopens, by rwa [Nat.add_assoc]⟩

/-- Where no parameters open, they stand behind the first code point if
anywhere. -/
theorem paramsAt_of_not_opens {c : CodePoint} {cs : Text} (h : openingLength? (c :: cs) = none)
    {start n k : Nat} :
    ParamsAt (c :: cs) start n k ↔ ∃ i, start = i + 1 ∧ ParamsAt cs i n k := by
  cases start with
  | zero =>
      refine ⟨fun hparams => ?_, fun ⟨i, hi, _⟩ => by cases hi⟩
      have hopens := openingLength?_eq_some.2 hparams.1
      rw [List.drop_zero, h] at hopens
      cases hopens
  | succ i =>
      have hsame : ParamsAt (c :: cs) (i + 1) n k ↔ ParamsAt cs i n k := by
        rw [ParamsAt, ParamsAt, Nat.add_right_comm, List.drop_succ_cons, List.drop_succ_cons]
      rw [hsame]
      exact ⟨fun hparams => ⟨i, rfl, hparams⟩, fun ⟨_, hi, hparams⟩ => Nat.succ.inj hi ▸ hparams⟩

/-- The search for block parameters meets every opening. -/
theorem mem_blockSpans {offset : Nat} {t : Text} {s : Nat × Nat} :
    s ∈ blockSpans offset t
      ↔ ∃ start n k, ParamsAt t start n k ∧ s = (offset + start + n, offset + start + n + k) := by
  fun_induction blockSpans offset t with
  -- the recursion of the model: end of text, closed and unclosed parameters, any other code point
  | case1 offset =>
      have hnone : ∀ start n k, ¬ ParamsAt [] start n k := by
        rintro start n k ⟨hopens, -⟩
        rw [List.drop_nil, ← openingLength?_eq_some] at hopens
        cases hopens
      simp [hnone]
  | case2 offset c cs m hopen rest k hk ih =>
      obtain ⟨m, rfl⟩ : ∃ l, m = l + 1 := ⟨m - 1, by have := openingLength?_bounds hopen; omega⟩
      have hshift : ∀ i, offset + 1 + m + i = offset + (m + 1 + i) := fun i => by omega
      rw [List.mem_cons, ih]
      simp only [Nat.add_sub_cancel, paramsAt_of_opens hopen, List.drop_succ_cons] at hk ⊢
      constructor
      · rintro (rfl | ⟨i, n, l, hparams, rfl⟩)
        · exact ⟨0, m + 1, k, .inl ⟨rfl, rfl, hk⟩, rfl⟩
        · exact ⟨m + 1 + i, n, l, .inr ⟨i, rfl, hparams⟩, by rw [hshift]⟩
      · rintro ⟨_, n, l, ⟨rfl, rfl, hl⟩ | ⟨i, rfl, hparams⟩, rfl⟩
        · rw [hk] at hl
          obtain rfl := Option.some.inj hl
          exact .inl rfl
        · exact .inr ⟨i, n, l, hparams, by rw [hshift]⟩
  | case3 offset c cs m hopen rest hk ih =>
      obtain ⟨m, rfl⟩ : ∃ l, m = l + 1 := ⟨m - 1, by have := openingLength?_bounds hopen; omega⟩
      have hshift : ∀ i, offset + 1 + m + i = offset + (m + 1 + i) := fun i => by omega
      rw [ih]
      simp only [Nat.add_sub_cancel, paramsAt_of_opens hopen, List.drop_succ_cons] at hk ⊢
      constructor
      · rintro ⟨i, n, l, hparams, rfl⟩
        exact ⟨m + 1 + i, n, l, .inr ⟨i, rfl, hparams⟩, by rw [hshift]⟩
      · rintro ⟨_, n, l, ⟨rfl, rfl, hl⟩ | ⟨i, rfl, hparams⟩, rfl⟩
        · rw [hk] at hl
          cases hl
        · exact ⟨i, n, l, hparams, by rw [hshift]⟩
  | case4 offset c cs hopen ih =>
      rw [ih]
      simp only [paramsAt_of_not_opens hopen]
      constructor
      · rintro ⟨i, n, k, hparams, rfl⟩
        exact ⟨i + 1, n, k, ⟨i, rfl, hparams⟩, by rw [Nat.add_assoc offset 1, Nat.add_comm 1]⟩
      · rintro ⟨_, n, k, ⟨i, rfl, hparams⟩, rfl⟩
        exact ⟨i, n, k, hparams, by rw [Nat.add_assoc offset 1, Nat.add_comm 1]⟩

/-- An offset in the code of an interpolation. -/
def InCode (t : Text) (i : Nat) : Prop :=
  ∃ cut ∈ Interpolated.split t, ∃ chunk ∈ cut.chunks,
    chunk.offset ≤ i ∧ i < chunk.offset + chunk.code.length

/-- An offset between the parentheses of block parameters. -/
def InParams (t : Text) (i : Nat) : Prop :=
  ∃ start n k, ParamsAt t start n k ∧ start + n ≤ i ∧ i < start + n + k

/-- A place is covered when it lies in one of the stretches. -/
theorem covered_iff {ss : List (Nat × Nat)} {i : Nat} :
    covered ss i = true ↔ ∃ s ∈ ss, s.1 ≤ i ∧ i < s.2 := by
  simp [covered]

/-- The offsets that the spans cover. -/
theorem covered_spans_iff {t : Text} {i : Nat} :
    covered (spans t) i = true ↔ InCode t i ∨ InParams t i := by
  have hcode : covered (codeSpans t) i = true ↔ InCode t i := by
    rw [covered_iff, InCode, codeSpans]
    cases Interpolated.split t <;> simp
  have hparams : covered (blockSpans 0 t) i = true ↔ InParams t i := by
    rw [covered_iff]
    constructor
    · rintro ⟨s, hs, hin⟩
      obtain ⟨start, n, k, hat, rfl⟩ := mem_blockSpans.1 hs
      rw [Nat.zero_add] at hin
      exact ⟨start, n, k, hat, hin⟩
    · rintro ⟨start, n, k, hat, hin⟩
      refine ⟨_, mem_blockSpans.2 ⟨start, n, k, hat, rfl⟩, ?_⟩
      rwa [Nat.zero_add]
  rw [spans, covered_append, Bool.or_eq_true, hcode, hparams]

/-- Of each code point, only a bracket in one of the stretches is changed.
-/
theorem getElem?_blankOut (ss : List (Nat × Nat)) (offset : Nat) (t : Text) (i : Nat) :
    (blankOut ss offset t)[i]?
      = t[i]?.map fun c : CodePoint =>
          if (c = '<' ∨ c = '>') ∧ covered ss (offset + i) then CodePoint.ofChar ' ' else c := by
  induction t generalizing offset i with
  | nil => rfl
  | cons c cs ih =>
      cases i with
      | zero => rfl
      | succ i =>
          rw [blankOut, List.getElem?_cons_succ, List.getElem?_cons_succ, ih, Nat.add_right_comm]
          rfl

/-- An offset that is masked: of an angle bracket in code or between the
parentheses of block parameters. -/
def Masked (t : Text) (i : Nat) : Prop :=
  (t[i]? = some (CodePoint.ofChar '<') ∨ t[i]? = some (CodePoint.ofChar '>'))
    ∧ (InCode t i ∨ InParams t i)

end Mask

/-- A masked text differs from the text at the masked offsets and nowhere
else, and has spaces there. -/
theorem getElem?_mask (t : Text) (i : Nat) :
    ((mask t)[i]? ≠ t[i]? ↔ Mask.Masked t i)
      ∧ (Mask.Masked t i → (mask t)[i]? = some (CodePoint.ofChar ' ')) := by
  rw [mask, Mask.getElem?_blankOut, Nat.zero_add, Mask.Masked, ← Mask.covered_spans_iff]
  cases t[i]? with
  | none => simp
  | some c =>
      simp only [Option.map_some, Option.some.injEq, ne_eq]
      by_cases hmasked : (c = '<' ∨ c = '>') ∧ Mask.covered (Mask.spans t) i = true
      · rw [if_pos hmasked]
        refine ⟨⟨fun _ => hmasked, fun _ hspace => ?_⟩, fun _ => rfl⟩
        rw [← hspace] at hmasked
        exact absurd hmasked.1 (by decide)
      · rw [if_neg hmasked]
        exact ⟨⟨fun hne => absurd rfl hne, fun h => absurd h hmasked⟩, fun h => absurd h hmasked⟩

end KeyHarvest
