/-
Texts that are cut alike. Where a text is cut at its interpolations depends
on a few code points only, its marks: braces, quotes, and backslashes. Two
texts are alike when one comes from the other by putting stretches without
marks in the place of others, none of them empty (`Alike`). An empty one
could bring two braces together, or put another code point behind a
backslash.

Code has the same end in texts that are alike (`find_alike`), so they are
cut into as many strings and as much code, each alike (`cut_alike`).
-/
import KeyHarvest.Proofs.Expr.Enclosed
import KeyHarvest.Proofs.Markup.Search

namespace KeyHarvest.Interpolated

/-- The code points that cuts depend on. -/
def marks : Text := ['{', '}', '\'', '"', '`', '\\']

/-- A stretch without marks. -/
def Unmarked (t : Text) : Prop := ∀ c ∈ t, c ∉ marks

instance (t : Text) : Decidable (Unmarked t) := inferInstanceAs (Decidable (∀ c ∈ t, c ∉ marks))

/-- Texts with the same marks, and between them stretches that are empty in
both or in neither. -/
inductive Alike : Text → Text → Prop where
  | nil : Alike [] []
  | same {t u : Text} (c : CodePoint) (h : Alike t u) : Alike (c :: t) (c :: u)
  | other {x y t u : Text} (hx : Unmarked x) (hy : Unmarked y) (hxnil : x ≠ []) (hynil : y ≠ [])
      (h : Alike t u) : Alike (x ++ t) (y ++ u)

-- ============================================================== marks

/-- A mark stands in both texts or in neither. -/
theorem Alike.of_mark {c : CodePoint} {t v : Text} (hc : c ∈ marks) (h : Alike (c :: t) v) :
    ∃ u, v = c :: u ∧ Alike t u := by
  generalize hw : c :: t = w at h
  cases h with
  | nil => cases hw
  | same d h =>
      cases hw
      exact ⟨_, rfl, h⟩
  | @other x y t' u hx hy hxnil hynil h =>
      cases x with
      | nil => exact absurd rfl hxnil
      | cons d x =>
          cases hw
          exact absurd hc (hx c List.mem_cons_self)

/-- A mark does not begin what is put in front of a text without marks. -/
theorem starts_of_unmarked {c : CodePoint} {x : Text} (t : Text) (hc : c ∈ marks)
    (hx : Unmarked x) (hnil : x ≠ []) : Text.starts c (x ++ t) = false := by
  cases x with
  | nil => exact absurd rfl hnil
  | cons d x =>
      refine decide_eq_false ?_
      intro hd
      exact hx d List.mem_cons_self (hd ▸ hc)

/-- Texts that are alike begin with the same marks. -/
theorem Alike.starts_eq {c : CodePoint} {t u : Text} (hc : c ∈ marks) (h : Alike t u) :
    Text.starts c t = Text.starts c u := by
  cases h with
  | nil => rfl
  | same d h => rfl
  | other hx hy hxnil hynil h =>
      rw [starts_of_unmarked _ hc hx hxnil, starts_of_unmarked _ hc hy hynil]

/-- The quotes of code are marks. -/
theorem codeQuotes_subset_marks : codeQuotes ⊆ marks := by decide

-- ============================================================ the ends

/-- Searches that come to nothing in both texts, or to ends before and
behind which the texts are alike. -/
inductive SameEnd (t u : Text) : Option Nat → Option Nat → Prop where
  | none : SameEnd t u none none
  | some {m n : Nat} (before : Alike (t.take m) (u.take n)) (behind : Alike (t.drop m) (u.drop n)) :
      SameEnd t u (some m) (some n)

/-- Ends move together when the same code point is put in front. -/
theorem SameEnd.cons {t u : Text} {a b : Option Nat} (c : CodePoint) (h : SameEnd t u a b) :
    SameEnd (c :: t) (c :: u) (a.map (· + 1)) (b.map (· + 1)) := by
  cases h with
  | none => exact .none
  | some before behind => exact .some (.same c before) behind

theorem SameEnd.append {x y t u : Text} {a b : Option Nat} (hx : Unmarked x) (hy : Unmarked y)
    (hxnil : x ≠ []) (hynil : y ≠ []) (h : SameEnd t u a b) :
    SameEnd (x ++ t) (y ++ u) (a.map (· + x.length)) (b.map (· + y.length)) := by
  cases h with
  | none => exact .none
  | @some m n before behind =>
      refine .some ?_ ?_
      · dsimp only
        rw [Nat.add_comm m, Nat.add_comm n, List.take_length_add_append,
          List.take_length_add_append]
        exact .other hx hy hxnil hynil before
      · dsimp only
        rw [Nat.add_comm m, Nat.add_comm n, List.drop_length_add_append,
          List.drop_length_add_append]
        exact behind

/-- A search passes over a stretch without marks. -/
theorem find_unmarked_append {x : Text} (t : Text) (hx : Unmarked x) {quote : Option CodePoint}
    (hquote : ∀ q ∈ quote, q ∈ codeQuotes) :
    Quoted.find codeQuotes endStep () quote (x ++ t)
      = (Quoted.find codeQuotes endStep () quote t).map (· + x.length) := by
  induction x with
  | nil => simp
  | cons c x ih =>
      have hc : c ∉ marks := hx c List.mem_cons_self
      have hrest := ih fun d hd => hx d (List.mem_cons_of_mem c hd)
      have hstep : Quoted.find codeQuotes endStep () quote (c :: (x ++ t))
          = (Quoted.find codeQuotes endStep () quote (x ++ t)).map (· + 1) := by
        cases quote with
        | none =>
            have hstop : c ≠ '}' := fun h => hc (by rw [h]; decide)
            rw [Quoted.find_outside fun h => hc (codeQuotes_subset_marks h), endStep,
              if_neg fun h => hstop h.1]
        | some q =>
            have hescape : c ≠ '\\' := fun h => hc (by rw [h]; decide)
            have hclose : c ≠ q := fun h => hc (codeQuotes_subset_marks (h ▸ hquote q rfl))
            rw [Quoted.find_inside hescape, if_neg hclose]
      rw [List.cons_append, hstep, hrest, Option.map_map]
      rfl

/-- An open quote is one of the quotes of code. -/
theorem mem_codeQuotes {q : CodePoint} (hq : q ∈ codeQuotes) : ∀ q' ∈ some q, q' ∈ codeQuotes := by
  intro q' hq'
  obtain rfl := Option.some.inj hq'
  exact hq

/-- Outside of quotes there is no open quote. -/
theorem mem_codeQuotes_none : ∀ q ∈ (none : Option CodePoint), q ∈ codeQuotes := by
  intro q hq
  cases hq

/-- A search behind a backslash, where the first code point is hidden. -/
def findEscaped (q : CodePoint) : Text → Option Nat
  | [] => none
  | _ :: t => (Quoted.find codeQuotes endStep () (some q) t).map (· + 1)

/-- Inside a quotation a backslash passes over what stands behind it. -/
theorem find_backslash (q : CodePoint) (t : Text) :
    Quoted.find codeQuotes endStep () (some q) (CodePoint.ofChar '\\' :: t)
      = (findEscaped q t).map (· + 1) := by
  cases t with
  | nil => rw [Quoted.find, if_pos rfl, findEscaped, Option.map_none]
  | cons d t =>
      rw [Quoted.find_escaped, findEscaped, Option.map_map]
      rfl

/-- The hidden code point belongs to a stretch without marks, which is passed
over all the same. -/
theorem findEscaped_unmarked_append {q : CodePoint} (hq : q ∈ codeQuotes) {x : Text} (t : Text)
    (hx : Unmarked x) (hnil : x ≠ []) : findEscaped q (x ++ t)
      = (Quoted.find codeQuotes endStep () (some q) t).map (· + x.length) := by
  cases x with
  | nil => exact absurd rfl hnil
  | cons d x =>
      have hrest : Unmarked x := fun c hc => hx c (List.mem_cons_of_mem d hc)
      rw [List.cons_append, findEscaped, find_unmarked_append t hrest (mem_codeQuotes hq),
        Option.map_map]
      rfl

/-- The step of a search for the end of code sees marks only. -/
theorem endStep_alike {c : CodePoint} {t u : Text} (h : Alike t u) :
    endStep () (c :: t) = endStep () (c :: u) := by
  have hbrace : Text.starts '}' t = Text.starts '}' u := h.starts_eq (by decide)
  rw [endStep, endStep, hbrace]

/-- Searches in texts that are alike come to the same end, also behind a
backslash. -/
theorem find_alike {t u : Text} (h : Alike t u) :
    (∀ quote, (∀ q ∈ quote, q ∈ codeQuotes) →
      SameEnd t u (Quoted.find codeQuotes endStep () quote t)
        (Quoted.find codeQuotes endStep () quote u))
    ∧ ∀ q ∈ codeQuotes, SameEnd t u (findEscaped q t) (findEscaped q u) := by
  induction h with
  | nil =>
      refine ⟨fun quote _ => ?_, fun q _ => .none⟩
      rw [Quoted.find]
      exact .none
  | @same t u c h ih =>
      obtain ⟨ihfind, ihescaped⟩ := ih
      -- one code point is the same on both sides
      refine ⟨fun quote hquote => ?_, fun q hq => (ihfind (some q) (mem_codeQuotes hq)).cons c⟩
      cases quote with
      | some q =>
          by_cases hc : c = '\\'
          · subst hc
            rw [find_backslash, find_backslash]
            exact (ihescaped q (hquote q rfl)).cons _
          · rw [Quoted.find_inside hc, Quoted.find_inside hc]
            apply (ihfind _ _).cons c
            split
            · exact mem_codeQuotes_none
            · exact hquote
      | none =>
          by_cases hc : c ∈ codeQuotes
          · rw [Quoted.find_opening hc, Quoted.find_opening hc]
            exact (ihfind (some c) (mem_codeQuotes hc)).cons c
          · rw [Quoted.find_outside hc, Quoted.find_outside hc, endStep_alike h]
            cases endStep () (c :: u) with
            | stop => exact .some .nil (.same c h)
            | fail => exact .none
            | go s => exact (ihfind none mem_codeQuotes_none).cons c
  | @other x y t u hx hy hxnil hynil h ih =>
      obtain ⟨ihfind, -⟩ := ih
      -- a stretch without marks, which no search stops in
      refine ⟨fun quote hquote => ?_, fun q hq => ?_⟩
      · rw [find_unmarked_append t hx hquote, find_unmarked_append u hy hquote]
        exact (ihfind quote hquote).append hx hy hxnil hynil
      · rw [findEscaped_unmarked_append hq t hx hxnil, findEscaped_unmarked_append hq u hy hynil]
        exact (ihfind (some q) (mem_codeQuotes hq)).append hx hy hxnil hynil

/-- The code in texts that are alike ends at places that are alike. -/
theorem codeLength?_alike {t u : Text} (h : Alike t u) :
    SameEnd t u (codeLength? t) (codeLength? u) := (find_alike h).1 none mem_codeQuotes_none

-- =============================================================== cuts

/-- Cuts into strings and code that are alike, one by one. -/
structure AlikeCuts (i j : Interpolated) : Prop where
  first : Alike i.first j.first
  rest : List.Forall₂ (fun a b : Chunk × Text => Alike a.1.code b.1.code ∧ Alike a.2 b.2)
    i.rest j.rest

/-- Texts that are cut alike have equally many chunks. -/
theorem AlikeCuts.length_chunks {i j : Interpolated} (h : AlikeCuts i j) :
    i.chunks.length = j.chunks.length := by
  rw [chunks, chunks, List.length_map, List.length_map]
  exact h.rest.length_eq

/-- What has no marks belongs to the first string of what it stands before.
-/
theorem cut_unmarked_append {x : Text} (t : Text) (hx : Unmarked x) (start : Nat) :
    cut start (x ++ t)
      = ⟨x ++ (cut (start + x.length) t).first, (cut (start + x.length) t).rest⟩ := by
  have hbrace : CodePoint.ofChar '{' ∉ x := fun h => hx _ h (by decide)
  refine cut_append ?_ ?_ start
  · rw [← Bool.not_eq_true, Text.holds_iff]
    exact fun h => hbrace (h.subset List.mem_cons_self)
  · intro h
    exact absurd (List.mem_of_getLast? h) hbrace

/-- Behind code stand two closing braces, in both of two texts that are
alike. -/
theorem Alike.drop_closing {t u : Text} {m : Nat} (hm : codeLength? t = some m) {n : Nat}
    (h : Alike (t.drop m) (u.drop n)) : Alike (t.drop (m + 2)) (u.drop (n + 2)) := by
  obtain ⟨s, hstop⟩ := Quoted.exists_stop_of_find hm
  rw [← List.drop_drop, ← List.drop_drop]
  generalize t.drop m = t at h hstop
  generalize u.drop n = u at h
  match t with
  | [] => cases hstop
  | [c] => simp [endStep, Text.starts] at hstop
  | c :: d :: t =>
      obtain ⟨rfl, hd⟩ : c = CodePoint.ofChar '}' ∧ Text.starts '}' (d :: t) = true := by
        by_contra hne
        rw [endStep, if_neg hne] at hstop
        cases hstop
      obtain rfl : d = CodePoint.ofChar '}' := of_decide_eq_true hd
      obtain ⟨v, rfl, hv⟩ := h.of_mark (by decide)
      obtain ⟨w, rfl, hw⟩ := hv.of_mark (by decide)
      exact hw

/-- Texts that are alike are cut alike. -/
theorem cut_alike {t u : Text} (h : Alike t u) (i j : Nat) : AlikeCuts (cut i t) (cut j u) := by
  induction hk : t.length using Nat.strongRecOn generalizing t u i j with
  | _ k rec =>
      subst hk
      cases h with
      | nil =>
          rw [cut, cut]
          exact ⟨.nil, .nil⟩
      | @other x y t u hx hy hxnil hynil h =>
          have hlt : t.length < (x ++ t).length := by
            rw [List.length_append]
            exact Nat.lt_add_of_pos_left (List.length_pos_iff.2 hxnil)
          rw [cut_unmarked_append t hx, cut_unmarked_append u hy]
          have hcuts := rec _ hlt h (i + x.length) (j + y.length) rfl
          exact ⟨.other hx hy hxnil hynil hcuts.first, hcuts.rest⟩
      | @same t u c h =>
          have hstarts := h.starts_eq (c := CodePoint.ofChar '{') (by decide)
          by_cases hopen : c = '{' ∧ Text.starts '{' t = true
          · have hopen' : c = '{' ∧ Text.starts '{' u = true := by rwa [← hstarts]
            rw [cut, cut, if_pos hopen, if_pos hopen']
            obtain ⟨rfl, hbrace⟩ := hopen
            cases t with
            | nil => cases hbrace
            | cons d t =>
                obtain rfl : d = CodePoint.ofChar '{' := of_decide_eq_true hbrace
                obtain ⟨v, rfl, hv⟩ := h.of_mark (by decide)
                simp only [List.drop_succ_cons, List.drop_zero]
                have hend := codeLength?_alike hv
                generalize hm : codeLength? t = a at hend ⊢
                generalize codeLength? v = b at hend ⊢
                cases hend with
                | none => exact ⟨.same _ (.same _ hv), .nil⟩
                | @some m n before behind =>
                    have hlt : (t.drop (m + 2)).length < t.length + 1 + 1 := by
                      rw [List.length_drop]
                      omega
                    have hcuts := rec _ hlt (behind.drop_closing hm) (i + m + 4) (j + n + 4) rfl
                    exact ⟨.nil, .cons ⟨before, hcuts.first⟩ hcuts.rest⟩
          · have hopen' : ¬ (c = '{' ∧ Text.starts '{' u = true) := by rwa [← hstarts]
            rw [cut, cut, if_neg hopen, if_neg hopen']
            have hcuts := rec t.length (Nat.lt_succ_self _) h (i + 1) (j + 1) rfl
            exact ⟨.same c hcuts.first, hcuts.rest⟩

/-- Of texts that are alike both hold interpolations or neither does, and
both the same number. -/
theorem split_alike {t u : Text} (h : Alike t u) :
    (split t).map (fun i => i.chunks.length) = (split u).map fun i => i.chunks.length := by
  have hcuts := cut_alike h 0 0
  have hlength := hcuts.rest.length_eq
  unfold split
  by_cases hnil : (cut 0 t).rest = []
  · have hnil' : (cut 0 u).rest = [] := by
      rw [hnil] at hlength
      exact List.length_eq_zero_iff.1 hlength.symm
    rw [hnil, hnil']
    rfl
  · have hnil' : (cut 0 u).rest ≠ [] := by
      intro h'
      rw [h'] at hlength
      exact hnil (List.length_eq_zero_iff.1 hlength)
    rw [if_neg (by simpa using hnil), if_neg (by simpa using hnil'), Option.map_some,
      Option.map_some, hcuts.length_chunks]

end KeyHarvest.Interpolated
