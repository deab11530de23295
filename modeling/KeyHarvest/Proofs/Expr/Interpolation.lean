/-
The cut of a text at its interpolations, stated without the search for it.
Code ends at closing braces that stand outside quotes (`Closes`), at the
first of them (`IsCode`); a string ends at the first opening braces
(`Leads`), and one with opening braces that are never closed is not cut
(`Uncut`). A text is cut correctly when it is its strings and its code with
the braces between them, and each part ends where it should
(`Decomposes`).

There is exactly one correct cut of a text, and `Interpolated.cut` finds it
(`cut_eq_iff`). Both directions come down to two equations: what the cut of
a text is when the text is a string with code behind it (`cut_of_isCode`),
and when it is not cut at all (`cut_of_uncut`).
-/
import KeyHarvest.Proofs.Expr.Scan
import KeyHarvest.Proofs.Markup.Search

namespace KeyHarvest.Interpolated

-- =============================================================== code

/-- The braces in front of code. -/
def opening : Text := ['{', '{']

/-- The braces behind code. -/
def closing : Text := ['}', '}']

/-- A text at the end of which no quotation is open. A backslash has a
meaning between quotes only. -/
inductive Unquoted : Text → Prop where
  | nil : Unquoted []
  | plain {c : CodePoint} {t : Text} (hc : c ∉ codeQuotes) (h : Unquoted t) : Unquoted (c :: t)
  | quotation {q : CodePoint} {body t : Text} (hq : q ∈ codeQuotes) (hbody : QuotedBody q body)
      (h : Unquoted t) : Unquoted (quotation q body ++ t)

/-- The text begins with `code` and closing braces behind it, which are
outside quotes. -/
def Closes (t code : Text) : Prop := Unquoted code ∧ code ++ closing <+: t

/-- The shortest such code. -/
structure IsCode (t code : Text) : Prop where
  closes : Closes t code
  shortest : ∀ other, Closes t other → code.length ≤ other.length

/-- The search for the end of code stops at two closing braces. -/
theorem closing_prefix_iff {t : Text} : closing <+: t ↔ endStep () t = .stop := by
  unfold closing endStep
  match t with
  | [] => simp
  | [c] => simp [Text.starts]
  | c :: d :: ds => simp [Text.starts, List.cons_prefix_cons, eq_comm]

/-- What is passed of a text from inside a quotation, or from outside:
first the quotation comes to its end, and then no other one is left
open. -/
def LeftFrom : Option CodePoint → Text → Prop
  | none, t => Unquoted t
  | some q, t => ∃ body rest, QuotedBody q body ∧ Unquoted rest ∧ t = body ++ q :: rest

/-- The search ends in front of closing braces, outside quotes. -/
theorem leftFrom_of_find {s : Unit} {quote : Option CodePoint} {t : Text} {n : Nat}
    (h : Quoted.find codeQuotes endStep s quote t = some n) :
    LeftFrom quote (t.take n) ∧ closing <+: t.drop n := by
  fun_induction Quoted.find codeQuotes endStep s quote t generalizing n with
  | case1 => cases h
  | case2 => cases h
  | case3 s q d ds ih =>
      obtain ⟨k, hk, rfl⟩ := Option.map_eq_some_iff.1 h
      obtain ⟨⟨body, rest, hbody, hrest, htake⟩, hclosing⟩ := ih hk
      exact ⟨⟨_, rest, .escaped d hbody, hrest, by simp [htake]⟩, hclosing⟩
  | case4 s c cs q hc ih =>
      obtain ⟨k, hk, rfl⟩ := Option.map_eq_some_iff.1 h
      obtain ⟨hleft, hclosing⟩ := ih hk
      refine ⟨?_, hclosing⟩
      by_cases hcq : c = q
      · rw [if_pos hcq] at hleft
        exact ⟨[], _, .nil, hleft, by simp [hcq]⟩
      · rw [if_neg hcq] at hleft
        obtain ⟨body, rest, hbody, hrest, htake⟩ := hleft
        exact ⟨_, rest, .plain hcq hc hbody, hrest, by simp [htake]⟩
  | case5 s c cs hc ih =>
      obtain ⟨k, hk, rfl⟩ := Option.map_eq_some_iff.1 h
      obtain ⟨⟨body, rest, hbody, hrest, htake⟩, hclosing⟩ := ih hk
      have hquotation : (c :: cs).take (k + 1) = quotation c body ++ rest := by
        simp [htake, quotation]
      refine ⟨?_, hclosing⟩
      rw [hquotation]
      exact .quotation hc hbody hrest
  | case6 s c cs hc hstop =>
      cases h
      exact ⟨.nil, closing_prefix_iff.2 hstop⟩
  | case7 => cases h
  | case8 s c cs hc s' hgo ih =>
      obtain ⟨k, hk, rfl⟩ := Option.map_eq_some_iff.1 h
      obtain ⟨hleft, hclosing⟩ := ih hk
      exact ⟨.plain hc hleft, hclosing⟩

/-- The search gets no further than any code that is closed. -/
theorem exists_codeLength?_le {t code : Text} (h : Closes t code) :
    ∃ n ≤ code.length, codeLength? t = some n := by
  obtain ⟨hcode, rest, rfl⟩ := h
  show ∃ n ≤ _, Quoted.find codeQuotes endStep () none _ = some n
  rw [List.append_assoc]
  induction hcode with
  | nil => exact ⟨0, Nat.le_refl 0, rfl⟩
  | @plain c t hc _ ih =>
      obtain ⟨n, hn, hfind⟩ := ih
      rw [List.cons_append, Quoted.find_outside hc]
      cases hstep : endStep () (c :: (t ++ (closing ++ rest))) with
      | stop => exact ⟨0, Nat.zero_le _, rfl⟩
      | fail => exact absurd hstep (endStep_ne_fail _ _)
      | go s => exact ⟨n + 1, Nat.succ_le_succ hn, by simp only [hfind, Option.map_some]⟩
  | @quotation q body t hq hbody _ ih =>
      obtain ⟨n, hn, hfind⟩ := ih
      have hback : q ≠ '\\' := by
        rintro rfl
        exact absurd hq (by decide)
      have hclose := hbody.close?_append hback []
      have hlength : (body ++ [q]).length = body.length + 1 := by simp
      refine ⟨n + (body.length + 1) + 1, by simp [quotation]; omega, ?_⟩
      rw [quotation, List.cons_append, List.cons_append, Quoted.find_opening hq,
        List.append_assoc (body ++ [q]), Quoted.find_of_close? hback hclose, ← hlength,
        List.drop_length, List.nil_append, hfind]
      rfl

/-- The search finds the shortest code. -/
theorem isCode_of_codeLength? {t : Text} {n : Nat} (h : codeLength? t = some n) :
    IsCode t (t.take n) := by
  obtain ⟨hcode, rest, hrest⟩ := leftFrom_of_find h
  have hlength : (t.take n).length = n := by
    have hle := codeLength?_add_two_le h
    exact List.length_take_of_le (by omega)
  refine ⟨⟨hcode, rest, ?_⟩, ?_⟩
  · rw [List.append_assoc, hrest, List.take_append_drop]
  · intro other hother
    obtain ⟨m, hm, hfind⟩ := exists_codeLength?_le hother
    obtain rfl := Option.some.inj (h.symm.trans hfind)
    rwa [hlength]

/-- The length of code is found as it is described. -/
theorem codeLength?_of_isCode {t code : Text} (h : IsCode t code) :
    codeLength? t = some code.length := by
  obtain ⟨n, hn, hfind⟩ := exists_codeLength?_le h.closes
  have hfound := isCode_of_codeLength? hfind
  have hle := h.shortest _ hfound.closes
  rw [List.length_take] at hle
  rw [hfind, Nat.le_antisymm hn (by omega)]

/-- The search fails on a text in which no code is closed. -/
theorem codeLength?_eq_none_iff {t : Text} : codeLength? t = none ↔ ∀ code, ¬ Closes t code := by
  constructor
  · intro h code hcode
    obtain ⟨n, -, hfind⟩ := exists_codeLength?_le hcode
    rw [h] at hfind
    cases hfind
  · intro h
    rw [Option.eq_none_iff_forall_ne_some]
    intro n hn
    exact h _ (isCode_of_codeLength? hn).closes

-- ============================================================ strings

/-- A string with code behind it: no opening braces are in it, nor do they
begin in it. -/
structure Leads (s : Text) : Prop where
  unopened : Text.holds opening s = false
  last : s.getLast? ≠ some (CodePoint.ofChar '{')

/-- A text that is not cut: there are no opening braces in it, or the first
ones are never closed. -/
def Uncut (t : Text) : Prop :=
  Text.holds opening t = false
    ∨ ∃ s rest, t = s ++ opening ++ rest ∧ Leads s ∧ ∀ code, ¬ Closes rest code

/-- A text with opening braces has first ones. -/
theorem exists_leads {t : Text} (h : Text.holds opening t = true) :
    ∃ s rest, t = s ++ opening ++ rest ∧ Leads s := by
  induction t with
  | nil => cases h
  | cons c cs ih =>
      by_cases hopen : opening <+: c :: cs
      · obtain ⟨rest, hrest⟩ := hopen
        exact ⟨[], rest, hrest.symm, rfl, by simp⟩
      · rw [Text.holds, Bool.or_eq_true, List.isPrefixOf_iff_prefix, or_iff_right hopen] at h
        obtain ⟨s, rest, rfl, hs⟩ := ih h
        refine ⟨c :: s, rest, rfl, ?_, ?_⟩
        · rw [Text.holds, hs.unopened, Bool.or_false, ← Bool.not_eq_true,
            List.isPrefixOf_iff_prefix]
          intro hpre
          refine hopen (hpre.trans ?_)
          rw [List.append_assoc]
          exact List.cons_prefix_cons.2 ⟨rfl, List.prefix_append _ _⟩
        · cases s with
          | nil =>
              intro hc
              obtain rfl := Option.some.inj hc
              exact hopen ⟨CodePoint.ofChar '{' :: rest, rfl⟩
          | cons d ds =>
              rw [List.getLast?_cons_cons]
              exact hs.last

/-- A string with code behind it is cut off there. -/
theorem cut_of_isCode {s code u : Text} (hs : Leads s) (hcode : IsCode (code ++ closing ++ u) code)
    (start : Nat) :
    cut start (s ++ opening ++ (code ++ closing ++ u))
      = ⟨s, (⟨code, start + s.length + 2⟩, (cut (start + s.length + code.length + 4) u).first)
          :: (cut (start + s.length + code.length + 4) u).rest⟩ := by
  have hdrop : (CodePoint.ofChar '{' :: (code ++ closing ++ u)).drop (code.length + 3) = u := by
    rw [List.append_assoc, List.drop_succ_cons, List.drop_length_add_append]
    rfl
  have htake : (code ++ closing ++ u).take code.length = code := by
    rw [List.append_assoc, List.take_left]
  have hopen : cut (start + s.length) (opening ++ (code ++ closing ++ u))
      = cons ⟨code, start + s.length + 2⟩ (cut (start + s.length + code.length + 4) u) := by
    show cut _ (CodePoint.ofChar '{' :: CodePoint.ofChar '{' :: (code ++ closing ++ u)) = _
    rw [cut, if_pos ⟨rfl, rfl⟩, List.drop_succ_cons, List.drop_zero, codeLength?_of_isCode hcode]
    dsimp only
    rw [htake, hdrop]
  rw [List.append_assoc, cut_append hs.unopened (fun h => absurd h hs.last), hopen]
  simp [cons]

/-- A text that is not to be cut is one string. -/
theorem cut_of_uncut {t : Text} (h : Uncut t) (start : Nat) : cut start t = ⟨t, []⟩ := by
  rcases h with h | ⟨s, rest, rfl, hs, hnone⟩
  · exact cut_of_unopened h start
  · have hopen : cut (start + s.length) (opening ++ rest) = ⟨opening ++ rest, []⟩ := by
      show cut _ (CodePoint.ofChar '{' :: CodePoint.ofChar '{' :: rest) = _
      rw [cut, if_pos ⟨rfl, rfl⟩, List.drop_succ_cons, List.drop_zero,
        codeLength?_eq_none_iff.2 hnone]
      rfl
    rw [List.append_assoc, cut_append hs.unopened (fun h => absurd h hs.last), hopen]

/-- A text is cut at its first opening braces or not at all. -/
theorem uncut_or_isCode (t : Text) :
    Uncut t ∨ ∃ s code u, t = s ++ opening ++ (code ++ closing ++ u) ∧ Leads s
      ∧ IsCode (code ++ closing ++ u) code := by
  cases hholds : Text.holds opening t with
  | false => exact .inl (.inl hholds)
  | true =>
      obtain ⟨s, rest, rfl, hs⟩ := exists_leads hholds
      cases hlength : codeLength? rest with
      | none => exact .inl (.inr ⟨s, rest, rfl, hs, codeLength?_eq_none_iff.1 hlength⟩)
      | some n =>
          have hcode := isCode_of_codeLength? hlength
          obtain ⟨u, hu⟩ := hcode.closes.2
          exact .inr ⟨s, rest.take n, u, by rw [hu], hs, by rwa [hu]⟩

-- =============================================================== cuts

/-- The code and the strings behind it, with the braces around the code. -/
def behind : List (Chunk × Text) → Text
  | [] => []
  | (c, s) :: rest => opening ++ (c.code ++ closing ++ (s ++ behind rest))

/-- The conditions on a cut of a text, places apart. -/
structure Decomposes (t : Text) (i : Interpolated) : Prop where
  text_eq : t = i.first ++ behind i.rest
  leads : ∀ s ∈ i.strings.dropLast, Leads s
  isCode : ∀ before c s after, i.rest = before ++ (c, s) :: after →
    IsCode (c.code ++ closing ++ (s ++ behind after)) c.code
  uncut : Uncut i.last

/-- Every chunk of code begins behind all that comes before it, its braces
included. -/
def Placed (start : Nat) (i : Interpolated) : Prop :=
  ∀ before c s after, i.rest = before ++ (c, s) :: after →
    c.offset = start + (i.first ++ behind before ++ opening).length

/-- The strings and the code of a cut, without the places. -/
def parts (i : Interpolated) : Text × List (Text × Text) :=
  (i.first, i.rest.map fun x => (x.1.code, x.2))

/-- A text that is cut nowhere is its first string. -/
theorem decomposes_uncut {t f : Text} : Decomposes t ⟨f, []⟩ ↔ t = f ∧ Uncut f := by
  constructor
  · intro h
    exact ⟨by simpa [behind] using h.text_eq, h.uncut⟩
  · rintro ⟨rfl, h⟩
    exact ⟨by simp [behind], by simp [strings], by simp, h⟩

/-- A cut is correct when its first string and its first code are, and so
is the cut of what is left. -/
theorem decomposes_cons {t f s : Text} {c : Chunk} {rest : List (Chunk × Text)} :
    Decomposes t ⟨f, (c, s) :: rest⟩
      ↔ ∃ u, t = f ++ opening ++ (c.code ++ closing ++ u) ∧ Leads f
        ∧ IsCode (c.code ++ closing ++ u) c.code ∧ Decomposes u ⟨s, rest⟩ := by
  have hstrings : (⟨f, (c, s) :: rest⟩ : Interpolated).strings.dropLast
      = f :: (⟨s, rest⟩ : Interpolated).strings.dropLast := rfl
  constructor
  · intro h
    have hleads := h.leads
    rw [hstrings, List.forall_mem_cons] at hleads
    refine ⟨s ++ behind rest, ?_, hleads.1, h.isCode [] c s rest rfl, rfl, hleads.2, ?_, h.uncut⟩
    · rw [h.text_eq, behind, List.append_assoc f]
    · intro before c' s' after hrest
      exact h.isCode ((c, s) :: before) c' s' after (congrArg (List.cons (c, s)) hrest)
  · rintro ⟨u, rfl, hf, hcode, hu⟩
    have hu_eq : u = s ++ behind rest := hu.text_eq
    refine ⟨?_, ?_, ?_, hu.uncut⟩
    · rw [hu_eq, behind, List.append_assoc f]
    · rw [hstrings, List.forall_mem_cons]
      exact ⟨hf, hu.leads⟩
    · intro before c' s' after hrest
      cases before with
      | nil =>
          cases hrest
          rwa [← hu_eq]
      | cons x before =>
          cases hrest
          exact hu.isCode before c' s' after rfl

/-- The places of a cut are right when that of its first code is, and so
are those in the cut of what is left. -/
theorem placed_cons {start : Nat} {f s : Text} {c : Chunk} {rest : List (Chunk × Text)} :
    Placed start ⟨f, (c, s) :: rest⟩
      ↔ c.offset = start + f.length + 2
        ∧ Placed (start + f.length + c.code.length + 4) ⟨s, rest⟩ := by
  have hlength : ∀ before, start + (f ++ behind ((c, s) :: before) ++ opening).length
      = start + f.length + c.code.length + 4 + (s ++ behind before ++ opening).length := by
    intro before
    simp [behind, opening, closing]
    omega
  constructor
  · intro h
    refine ⟨?_, ?_⟩
    · rw [h [] c s rest rfl]
      simp [behind, opening]
      omega
    · intro before c' s' after hrest
      rw [← hlength]
      exact h ((c, s) :: before) c' s' after (congrArg (List.cons (c, s)) hrest)
  · rintro ⟨hc, hrest⟩ before c' s' after heq
    cases before with
    | nil =>
        cases heq
        rw [hc]
        simp [behind, opening]
        omega
    | cons x before =>
        cases heq
        rw [hlength]
        exact hrest before c' s' after rfl

/-- The cut of a text is correct. -/
theorem decomposes_cut (start : Nat) (t : Text) :
    Decomposes t (cut start t) ∧ Placed start (cut start t) := by
  induction hk : t.length using Nat.strongRecOn generalizing start t with
  | _ k rec =>
      subst hk
      rcases uncut_or_isCode t with h | ⟨s, code, u, rfl, hs, hcode⟩
      · rw [cut_of_uncut h]
        exact ⟨decomposes_uncut.2 ⟨rfl, h⟩, by simp [Placed]⟩
      · have hlt : u.length < (s ++ opening ++ (code ++ closing ++ u)).length := by
          simp [opening, closing]
          omega
        obtain ⟨hu, hplaced⟩ := rec _ hlt (start + s.length + code.length + 4) u rfl
        rw [cut_of_isCode hs hcode]
        exact ⟨decomposes_cons.2 ⟨u, rfl, hs, hcode, hu⟩, placed_cons.2 ⟨rfl, hplaced⟩⟩

/-- Where a text is cut, and into what, is determined by what a correct cut
is. -/
theorem parts_cut {t : Text} {i : Interpolated} (h : Decomposes t i) (start : Nat) :
    (cut start t).parts = i.parts := by
  obtain ⟨first, rest⟩ := i
  induction rest generalizing t first start with
  | nil =>
      obtain ⟨rfl, huncut⟩ := decomposes_uncut.1 h
      rw [cut_of_uncut huncut]
  | cons x rest ih =>
      obtain ⟨c, s⟩ := x
      obtain ⟨u, rfl, hf, hcode, hu⟩ := decomposes_cons.1 h
      have hrest := ih (start + first.length + c.code.length + 4) s hu
      rw [cut_of_isCode hf hcode]
      simp only [parts, Prod.mk.injEq] at hrest
      simp [parts, hrest]

/-- The places of a cut are determined by its strings and its code. -/
theorem Placed.eq_of_parts {start : Nat} {i j : Interpolated} (hi : Placed start i)
    (hj : Placed start j) (h : i.parts = j.parts) : i = j := by
  obtain ⟨first, rest⟩ := i
  obtain ⟨first', rest'⟩ := j
  induction rest generalizing start first first' rest' with
  | nil =>
      obtain ⟨rfl, hrest⟩ := Prod.mk.inj h
      obtain rfl := List.map_eq_nil_iff.1 hrest.symm
      rfl
  | cons x rest ih =>
      obtain ⟨⟨code, offset⟩, s⟩ := x
      obtain ⟨rfl, hrest⟩ := Prod.mk.inj h
      obtain ⟨⟨⟨code', offset'⟩, s'⟩, rest', rfl, hx, htail⟩ := List.map_eq_cons_iff.1 hrest.symm
      obtain ⟨rfl, rfl⟩ : code' = code ∧ s' = s := Prod.mk.inj hx
      obtain ⟨hoffset, hi⟩ := placed_cons.1 hi
      obtain ⟨hoffset', hj⟩ := placed_cons.1 hj
      have hsame := ih s' hi s' rest' hj (congrArg (Prod.mk s') htail.symm)
      obtain ⟨-, rfl⟩ := Interpolated.mk.inj hsame
      rw [show offset = offset' from hoffset.trans hoffset'.symm]

/-- A text has one correct cut. -/
theorem cut_eq_iff {start : Nat} {t : Text} {i : Interpolated} :
    cut start t = i ↔ Decomposes t i ∧ Placed start i := by
  constructor
  · rintro rfl
    exact decomposes_cut start t
  · rintro ⟨hi, hplaced⟩
    exact (decomposes_cut start t).2.eq_of_parts hplaced (parts_cut hi start)

/-- What stands behind the first string adds up. -/
theorem behind_append (l r : List (Chunk × Text)) : behind (l ++ r) = behind l ++ behind r := by
  induction l with
  | nil => rfl
  | cons x l ih => simp [behind, ih]

/-- A chunk of code is found at its place in the text. -/
theorem slice_of_placed {t : Text} {i : Interpolated} (hi : Decomposes t i) (hplaced : Placed 0 i)
    {c : Chunk} (hc : c ∈ i.chunks) :
    Text.slice t c.offset (c.offset + c.code.length) = c.code := by
  obtain ⟨⟨c, s⟩, hx, rfl⟩ := List.mem_map.1 hc
  obtain ⟨before, after, hrest⟩ := List.append_of_mem hx
  have htext : t = (i.first ++ behind before ++ opening)
      ++ (c.code ++ (closing ++ (s ++ behind after))) := by
    rw [hi.text_eq, hrest, behind_append, behind]
    simp only [List.append_assoc]
  refine slice_of_isPrefix ?_
  rw [hplaced before c s after hrest, Nat.zero_add, htext, List.drop_left]
  exact List.prefix_append _ _

/-- A cut leaves a text in one piece exactly when it is not to be cut. -/
theorem rest_cut_eq_nil_iff {t : Text} (start : Nat) : (cut start t).rest = [] ↔ Uncut t := by
  constructor
  · intro h
    have hcut : cut start t = ⟨(cut start t).first, []⟩ := by rw [← h]
    obtain ⟨htext, huncut⟩ := decomposes_uncut.1 (hcut ▸ (decomposes_cut start t).1)
    exact htext ▸ huncut
  · intro h
    rw [cut_of_uncut h]

/-- A text is split just as its parts, its chunks and their places say. -/
theorem split_eq_some_iff {t : Text} {i : Interpolated} :
    split t = some i ↔ i.chunks ≠ [] ∧ Decomposes t i ∧ Placed 0 i := by
  rw [← cut_eq_iff, split, Option.ite_none_left_eq_some, Option.some.injEq, chunks]
  constructor
  · rintro ⟨hrest, rfl⟩
    exact ⟨by simpa using hrest, rfl⟩
  · rintro ⟨hchunks, rfl⟩
    exact ⟨by simpa using hchunks, rfl⟩

/-- Cutting a text at its interpolations is exact. There is nothing to cut
exactly when there are no opening braces, or the first ones are never
closed outside quotes. Otherwise the cut is the only one with at least one
chunk of code whose parts and the braces between them are the text, each
part ending where it should, and every chunk is found at its place. The
strings and the code are already determined without the places. -/
theorem split_exact (t : Text) :
    (split t = none ↔ Uncut t)
      ∧ (∀ i, split t = some i ↔ i.chunks ≠ [] ∧ Decomposes t i ∧ Placed 0 i)
      ∧ (∀ i, split t = some i → ∀ c ∈ i.chunks,
          Text.slice t c.offset (c.offset + c.code.length) = c.code)
      ∧ ∀ i j, Decomposes t i → Decomposes t j →
          i.strings = j.strings ∧ i.chunks.map Chunk.code = j.chunks.map Chunk.code := by
  refine ⟨?_, fun i => split_eq_some_iff, ?_, ?_⟩
  · rw [← rest_cut_eq_nil_iff 0, split]
    simp
  · intro i hi c hc
    obtain ⟨-, hdecomposes, hplaced⟩ := split_eq_some_iff.1 hi
    exact slice_of_placed hdecomposes hplaced hc
  · intro i j hi hj
    have hparts : i.parts = j.parts := (parts_cut hi 0).symm.trans (parts_cut hj 0)
    obtain ⟨hfirst, hrest⟩ := Prod.mk.inj hparts
    have hcodes := congrArg (List.map Prod.fst) hrest
    have hstrings := congrArg (List.map Prod.snd) hrest
    simp only [List.map_map] at hcodes hstrings
    constructor
    · rw [strings, strings, hfirst]
      exact congrArg (List.cons j.first) hstrings
    · rw [chunks, chunks, List.map_map, List.map_map]
      exact hcodes

/-- A third brace belongs to the code, quoted braces do not close it, and
opening braces with nothing but quoted ones behind them are left alone. -/
theorem split_exact_unclosed :
    let t : Text := ['a', '{', '{', '{', '\'', '}', '}', '\'', '}', '}', '{', '{', '`', '}', '}']
    let i : Interpolated := ⟨['a'], [(⟨['{', '\'', '}', '}', '\''], 3⟩, ['{', '{', '`', '}', '}'])]⟩
    split t = some i ∧ Decomposes t i ∧ Placed 0 i
      ∧ Text.slice t 3 8 = ['{', '\'', '}', '}', '\''] ∧ Uncut ['{', '{', '`', '}', '}'] := by
  intro t i
  have hsplit : split t = some i := by decide +kernel
  obtain ⟨-, hi, hplaced⟩ := ((split_exact t).2.1 i).1 hsplit
  refine ⟨hsplit, hi, hplaced, ?_, ?_⟩
  · exact (split_exact t).2.2.1 i hsplit _ List.mem_cons_self
  · exact (split_exact _).1.1 (by decide +kernel)

end KeyHarvest.Interpolated
