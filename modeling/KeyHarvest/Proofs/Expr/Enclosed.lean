/-
Code inside braces and inside parentheses. When code is cut into tokens,
the search for its end stops right behind it, whatever follows: at the
braces of an interpolation unless two closing braces of the code stand
side by side, and at the parenthesis of a block when the parentheses of
the code are balanced. An interpolation is then read as the code alone
would be, with its faults as far to the right as the code stands
(`code_enclosed`).
-/
import KeyHarvest.Proofs.Expr.Quoting
import Mathlib.Data.List.Infix
import Mathlib.Data.List.Permutation

namespace KeyHarvest

deriving instance DecidableEq for TokenKind
deriving instance DecidableEq for Token

-- ============================================================== marks

/-- A mark at a position. -/
def Mark.at (m : Mark) (p : Nat) : Token Text := ⟨.mark m, p⟩

/-- The number of tokens that are a mark. -/
def Mark.count (m : Mark) (ts : List (Token Text)) : Nat :=
  ts.countP fun t => match t.kind with
    | .mark m' => m' = m
    | _ => false

/-- No parenthesis closes that was not opened before, and none is left
open; `depth` of them were opened further to the left. -/
structure BalancedFrom (depth : Nat) (ts : List (Token Text)) : Prop where
  opened : ∀ us, us <+: ts → Mark.closeParen.count us ≤ depth + Mark.openParen.count us
  closed : Mark.closeParen.count ts = depth + Mark.openParen.count ts

/-- The parentheses among tokens are balanced. -/
def Balanced (ts : List (Token Text)) : Prop := BalancedFrom 0 ts

instance (depth : Nat) (ts : List (Token Text)) : Decidable (BalancedFrom depth ts) :=
  decidable_of_iff
    ((∀ us ∈ ts.inits, Mark.closeParen.count us ≤ depth + Mark.openParen.count us)
      ∧ Mark.closeParen.count ts = depth + Mark.openParen.count ts)
    ⟨fun h => ⟨fun us hus => h.1 us ((List.mem_inits us ts).2 hus), h.2⟩,
      fun h => ⟨fun us hus => h.opened us ((List.mem_inits us ts).1 hus), h.closed⟩⟩

instance (ts : List (Token Text)) : Decidable (Balanced ts) :=
  inferInstanceAs (Decidable (BalancedFrom 0 ts))

/-- A token of a mark counts once more. -/
theorem Mark.count_cons_self (m : Mark) (p : Nat) (ts : List (Token Text)) :
    m.count (m.at p :: ts) = m.count ts + 1 := by
  unfold Mark.count
  rw [List.countP_cons_of_pos (by simp [Mark.at])]

/-- Any other token does not count. -/
theorem Mark.count_cons_of_ne {m : Mark} {t : Token Text} (h : t.kind ≠ .mark m)
    (ts : List (Token Text)) : m.count (t :: ts) = m.count ts := by
  unfold Mark.count
  rw [List.countP_cons_of_neg]
  obtain ⟨kind, p⟩ := t
  cases kind with
  | mark m' =>
      have hne : m' ≠ m := fun he => h (by rw [he])
      simp [hne]
  | _ => simp

namespace BalancedFrom

variable {depth : Nat} {ts : List (Token Text)}

/-- Behind a token that is no parenthesis. -/
theorem tail {t : Token Text} (h : BalancedFrom depth (t :: ts))
    (hopen : t.kind ≠ .mark .openParen) (hclose : t.kind ≠ .mark .closeParen) :
    BalancedFrom depth ts where
  opened := by
    intro us hus
    have hcons := h.opened (t :: us) (List.cons_prefix_cons.2 ⟨rfl, hus⟩)
    rwa [Mark.count_cons_of_ne hopen, Mark.count_cons_of_ne hclose] at hcons
  closed := by
    have hcons := h.closed
    rwa [Mark.count_cons_of_ne hopen, Mark.count_cons_of_ne hclose] at hcons

/-- Behind an opening parenthesis. -/
theorem tail_open {p : Nat} (h : BalancedFrom depth (Mark.openParen.at p :: ts)) :
    BalancedFrom (depth + 1) ts where
  opened := by
    intro us hus
    have hcons := h.opened (Mark.openParen.at p :: us) (List.cons_prefix_cons.2 ⟨rfl, hus⟩)
    rw [Mark.count_cons_self, Mark.count_cons_of_ne (by simp [Mark.at])] at hcons
    omega
  closed := by
    have hcons := h.closed
    rw [Mark.count_cons_self, Mark.count_cons_of_ne (by simp [Mark.at])] at hcons
    omega

/-- Behind a closing parenthesis, before which one must be open. -/
theorem tail_close {p : Nat} (h : BalancedFrom depth (Mark.closeParen.at p :: ts)) :
    ∃ d, depth = d + 1 ∧ BalancedFrom d ts := by
  have hone := h.opened [Mark.closeParen.at p] ⟨ts, rfl⟩
  rw [Mark.count_cons_self, Mark.count_cons_of_ne (by simp [Mark.at])] at hone
  obtain ⟨d, rfl⟩ : ∃ d, depth = d + 1 := ⟨depth - 1, by
    have hnil : Mark.openParen.count [] = 0 := rfl
    omega⟩
  refine ⟨d, rfl, ?_, ?_⟩
  · intro us hus
    have hcons := h.opened (Mark.closeParen.at p :: us) (List.cons_prefix_cons.2 ⟨rfl, hus⟩)
    rw [Mark.count_cons_self, Mark.count_cons_of_ne (by simp [Mark.at])] at hcons
    omega
  · have hcons := h.closed
    rw [Mark.count_cons_self, Mark.count_cons_of_ne (by simp [Mark.at])] at hcons
    omega

end BalancedFrom

/-- A piece that is no mark has no mark for a token. -/
theorem Lexeme.kind_ne_mark {l : Lexeme} (hkind : ∀ m, l.kind ≠ .mark m) {p : Nat}
    {first : Option (Token Text)} (h : l.token? p = .ok first) :
    ∀ t ∈ first, ∀ m, t.kind ≠ .mark m := by
  obtain ⟨kind, raw⟩ := l
  cases kind with
  | mark m => exact absurd rfl (hkind m)
  | number =>
      cases hn : numeral raw with
      | error e => simp [token?, hn, Except.map] at h
      | ok n =>
          simp only [token?, hn, Except.map, Except.ok.injEq] at h
          subst h
          simp
  | word =>
      simp only [token?] at h
      split at h <;> cases h <;> simp
  | stray =>
      simp only [token?] at h
      split at h
      · split at h <;> cases h
      · cases h
        simp
  | _ => cases h; simp

/-- Tokens without marks in front do not count. -/
theorem BalancedFrom.right {depth : Nat} {first : Option (Token Text)} {rest : List (Token Text)}
    (h : BalancedFrom depth (first.toList ++ rest)) (hfirst : ∀ t ∈ first, ∀ m, t.kind ≠ .mark m) :
    BalancedFrom depth rest := by
  cases first with
  | none => exact h
  | some t => exact h.tail (hfirst t rfl _) (hfirst t rfl _)

-- ======================================================== parentheses

namespace Mask

/-- Only parentheses and braces matter to a search for a closing
parenthesis. -/
theorem parenStep_of_ne {c : CodePoint} (hopen : c ≠ '(') (hclose : c ≠ ')') (hbrace : c ≠ '{')
    (depth : Nat) (t : Text) : parenStep depth (c :: t) = .go depth := by
  unfold parenStep
  dsimp only
  rw [if_neg hopen, if_neg hclose, if_neg hbrace]

/-- The search for the closing parenthesis goes over balanced code. -/
theorem passes_parenStep {q : Text} {ls : List Lexeme} {p depth : Nat} {ts : List (Token Text)}
    (hshape : ∀ l ∈ ls, l.Shape) (hts : Lexeme.tokens p ls = .ok ts)
    (hbrace : ∀ p, Mark.openBrace.at p ∉ ts) (hb : BalancedFrom depth ts) :
    Quoted.Passes parenStep (CodePoint.ofChar ')' :: q) depth ls 0 := by
  induction ls generalizing p depth ts with
  | nil =>
      cases hts
      obtain rfl : 0 = depth := hb.closed
      exact .nil 0
  | cons l ls ih =>
      obtain ⟨first, rest, hfirst, hrest, rfl⟩ := Lexeme.tokens_cons_eq_ok hts
      have ih : ∀ d, BalancedFrom d rest →
          Quoted.Passes parenStep (CodePoint.ofChar ')' :: q) d ls 0 := fun d hd =>
        ih (fun l' hl' => hshape l' (List.mem_cons_of_mem l hl')) hrest
          (fun p hp => hbrace p (List.mem_append_right _ hp)) hd
      cases hshape l List.mem_cons_self with
      | mark m =>
          obtain rfl : some (m.at p) = first := Except.ok.inj hfirst
          by_cases hopen : m = .openParen
          · subst hopen
            exact .mark rfl (ih (depth + 1) hb.tail_open)
          by_cases hclose : m = .closeParen
          · subst hclose
            obtain ⟨d, rfl, hd⟩ := hb.tail_close
            exact .mark rfl (ih d hd)
          have hmark : m ≠ .openBrace := fun hm => hbrace p (by rw [hm]; simp)
          refine .mark (parenStep_of_ne ?_ ?_ ?_ _ _) (ih depth (hb.tail ?_ ?_))
          · cases m <;> first | decide | exact absurd rfl hopen
          · cases m <;> first | decide | exact absurd rfl hclose
          · cases m <;> first | decide | exact absurd rfl hmark
          · simpa [Mark.at] using hopen
          · simpa [Mark.at] using hclose
      | plain hkind _ =>
          exact .other hkind (ih depth (hb.right (Lexeme.kind_ne_mark hkind hfirst)))
      | quoted hkind _ _ =>
          exact .other hkind (ih depth (hb.right (Lexeme.kind_ne_mark hkind hfirst)))

/-- Balanced code ends at the parenthesis behind it. -/
theorem paramsLength?_of_tokenize {e : Text} {ts : List (Token Text)} (hts : tokenize 0 e = .ok ts)
    (hbrace : ∀ p, Mark.openBrace.at p ∉ ts) (hb : Balanced ts) (q : Text) :
    paramsLength? (e ++ CodePoint.ofChar ')' :: q) = some e.length := by
  have hstep : ∀ s c t, Neutral c → parenStep s (c :: t) = .go s := by
    intro s c t hc
    refine parenStep_of_ne ?_ ?_ ?_ s t
    · rintro rfl; exact hc.2 (by decide)
    · rintro rfl; exact hc.2 (by decide)
    · rintro rfl; exact hc.2 (by decide)
  have hfind := Quoted.find_of_passes (List.Subset.refl _) hstep (Lexeme.shape_of_tokenize hts)
    (fun _ _ _ _ hc => hc) (passes_parenStep (q := q) (Lexeme.shape_of_tokenize hts) hts hbrace hb)
  have hstop : Quoted.find codeQuotes parenStep 0 none (CodePoint.ofChar ')' :: q) = some 0 := by
    rw [Quoted.find.eq_def]
    rfl
  rw [Lexeme.flatMap_raw_split, hstop, Option.map_some, Nat.zero_add] at hfind
  exact hfind

end Mask

-- ============================================================= braces

namespace Interpolated

/-- Only two closing braces stop a search for the end of code. -/
theorem endStep_of_ne {c : CodePoint} {t : Text} (h : c = '}' → Text.starts '}' t = false) :
    endStep () (c :: t) = .go () := by
  unfold endStep
  dsimp only
  rw [if_neg]
  intro hc
  rw [h hc.1] at hc
  exact absurd hc.2 (by decide)

/-- Behind a closing brace of the code stands no other one. -/
theorem starts_closeBrace_eq_false {post : Text} {ls : List Lexeme} {p : Nat}
    {rest : List (Token Text)} (hshape : ∀ l ∈ ls, l.Shape) (hraw : ∀ l ∈ ls, l.raw ≠ [])
    (hrest : Lexeme.tokens p ls = .ok rest) (hnext : Mark.closeBrace.at p ∉ rest) (hne : ls ≠ []) :
    Text.starts '}' (ls.flatMap Lexeme.raw ++ post) = false := by
  cases ls with
  | nil => exact absurd rfl hne
  | cons l ls =>
      have hhead : ∀ c cs, l.raw = c :: cs → c ≠ '}' →
          Text.starts '}' ((l :: ls).flatMap Lexeme.raw ++ post) = false := by
        intro c cs hc hbrace
        rw [List.flatMap_cons, hc]
        simpa [Text.starts] using hbrace
      cases hshape l List.mem_cons_self with
      | @quoted kind q body _ hq _ =>
          refine hhead q body rfl ?_
          rintro rfl
          revert hq
          decide
      | @plain kind raw _ hneutral =>
          cases raw with
          | nil => exact absurd rfl (hraw _ List.mem_cons_self)
          | cons c cs =>
              refine hhead c cs rfl ?_
              rintro rfl
              exact (hneutral _ List.mem_cons_self).2 (by decide)
      | mark m =>
          refine hhead m.char [] rfl ?_
          intro hm
          obtain rfl : m = .closeBrace := by
            cases m <;> first | rfl | exact absurd hm (by decide)
          obtain ⟨first, rest, hfirst, -, rfl⟩ := Lexeme.tokens_cons_eq_ok hrest
          obtain rfl : some (Mark.closeBrace.at p) = first := Except.ok.inj hfirst
          exact hnext (by simp)

/-- The search for the end of an interpolation goes over code without two
closing braces side by side. -/
theorem passes_endStep {post : Text} {ls : List Lexeme} {p : Nat} {ts : List (Token Text)}
    (hshape : ∀ l ∈ ls, l.Shape) (hraw : ∀ l ∈ ls, l.raw ≠ []) (hts : Lexeme.tokens p ls = .ok ts)
    (hapart : ∀ p, Mark.closeBrace.at p ∈ ts → Mark.closeBrace.at (p + 1) ∉ ts)
    (hlast : ∀ q, Mark.closeBrace.at q ∈ ts → q + 1 ≠ p + (ls.flatMap Lexeme.raw).length) :
    Quoted.Passes endStep post () ls () := by
  induction ls generalizing p ts with
  | nil => exact .nil ()
  | cons l ls ih =>
      obtain ⟨first, rest, hfirst, hrest, rfl⟩ := Lexeme.tokens_cons_eq_ok hts
      have hshapes : ∀ l' ∈ ls, l'.Shape := fun l' hl' => hshape l' (List.mem_cons_of_mem l hl')
      have hraws : ∀ l' ∈ ls, l'.raw ≠ [] := fun l' hl' => hraw l' (List.mem_cons_of_mem l hl')
      have hpasses : Quoted.Passes endStep post () ls () := by
        refine ih hshapes hraws hrest ?_ ?_
        · intro q hq hq'
          exact hapart q (List.mem_append_right _ hq) (List.mem_append_right _ hq')
        · intro q hq
          have hne := hlast q (List.mem_append_right _ hq)
          rwa [List.flatMap_cons, List.length_append, ← Nat.add_assoc] at hne
      cases hshape l List.mem_cons_self with
      | plain hkind _ => exact .other hkind hpasses
      | quoted hkind _ _ => exact .other hkind hpasses
      | mark m =>
          obtain rfl : some (m.at p) = first := Except.ok.inj hfirst
          refine .mark (endStep_of_ne ?_) hpasses
          intro hm
          obtain rfl : m = .closeBrace := by
            cases m <;> first | rfl | exact absurd hm (by decide)
          have hmem : Mark.closeBrace.at p ∈ (some (Mark.closeBrace.at p)).toList ++ rest := by simp
          refine starts_closeBrace_eq_false hshapes hraws hrest ?_ ?_
          · exact fun hnext => hapart p hmem (List.mem_append_right _ hnext)
          · rintro rfl
            exact hlast p hmem rfl

/-- Code without two closing braces side by side, at its end neither, ends
at the braces behind it. -/
theorem codeLength?_of_tokenize {e : Text} {ts : List (Token Text)} (hts : tokenize 0 e = .ok ts)
    (hapart : ∀ p, Mark.closeBrace.at p ∈ ts → Mark.closeBrace.at (p + 1) ∉ ts)
    (hlast : ∀ p, Mark.closeBrace.at p ∈ ts → p + 1 ≠ e.length) (post : Text) :
    codeLength? (e ++ CodePoint.ofChar '}' :: CodePoint.ofChar '}' :: post) = some e.length := by
  have hstep : ∀ s c t, Neutral c → endStep s (c :: t) = .go s := by
    intro s c t hc
    refine endStep_of_ne ?_
    rintro rfl
    exact absurd (by decide) hc.2
  have hlast' : ∀ p, Mark.closeBrace.at p ∈ ts →
      p + 1 ≠ 0 + ((Lexeme.split e).flatMap Lexeme.raw).length := by
    intro p hp
    rw [Lexeme.flatMap_raw_split, Nat.zero_add]
    exact hlast p hp
  have hpasses : Quoted.Passes endStep (CodePoint.ofChar '}' :: CodePoint.ofChar '}' :: post) ()
      (Lexeme.split e) () :=
    passes_endStep (Lexeme.shape_of_tokenize hts) (fun l hl => Lexeme.raw_ne_nil_of_mem_split hl)
      hts hapart hlast'
  have hfind := Quoted.find_of_passes (List.Subset.refl _) hstep (Lexeme.shape_of_tokenize hts)
    (fun _ _ _ _ hc => hc) hpasses
  have hstop : Quoted.find codeQuotes endStep () none
      (CodePoint.ofChar '}' :: CodePoint.ofChar '}' :: post) = some 0 := by
    rw [Quoted.find.eq_def]
    rfl
  rw [Lexeme.flatMap_raw_split, hstop, Option.map_some, Nat.zero_add] at hfind
  exact hfind

-- ============================================================ cutting

/-- A text without opening braces is not cut. The text behind it is cut
as if it stood alone, unless the braces come together where they meet. -/
theorem cut_append {pre t : Text} (hpre : Text.holds ['{', '{'] pre = false)
    (hlast : pre.getLast? = some (CodePoint.ofChar '{') → Text.starts '{' t = false)
    (start : Nat) :
    cut start (pre ++ t)
      = ⟨pre ++ (cut (start + pre.length) t).first, (cut (start + pre.length) t).rest⟩ := by
  induction pre generalizing start with
  | nil => rfl
  | cons c cs ih =>
      have hcs : Text.holds ['{', '{'] cs = false := by
        rw [Text.holds, Bool.or_eq_false_iff] at hpre
        exact hpre.2
      have hopen : ¬ (c = '{' ∧ Text.starts '{' (cs ++ t) = true) := by
        rintro ⟨rfl, hs⟩
        cases cs with
        | nil =>
            rw [List.nil_append, hlast rfl] at hs
            cases hs
        | cons d ds =>
            have hd : d = '{' := by simpa [Text.starts] using hs
            subst hd
            simp [Text.holds, List.isPrefixOf] at hpre
      have hlast' : cs.getLast? = some (CodePoint.ofChar '{') → Text.starts '{' t = false := by
        intro h
        apply hlast
        cases cs with
        | nil => cases h
        | cons d ds => rwa [List.getLast?_cons_cons]
      have hstart : start + 1 + cs.length = start + (c :: cs).length := by
        rw [List.length_cons]
        omega
      rw [List.cons_append, cut, if_neg hopen, ih hcs hlast' (start + 1), hstart]
      rfl

/-- A text without opening braces is one string. -/
theorem cut_of_unopened {t : Text} (h : Text.holds ['{', '{'] t = false) (start : Nat) :
    cut start t = ⟨t, []⟩ := by
  have happend := cut_append (t := []) h (fun _ => rfl) start
  rw [List.append_nil, cut, List.append_nil] at happend
  exact happend

end Interpolated

/-- A text with code between braces. -/
def interpolated (pre e post : Text) : Text :=
  pre ++ (CodePoint.ofChar '{' :: CodePoint.ofChar '{' :: e)
    ++ CodePoint.ofChar '}' :: CodePoint.ofChar '}' :: post

/-- A text with one interpolation is cut around its code. -/
theorem split_interpolated {pre e post : Text}
    (hcode : Interpolated.codeLength?
      (e ++ CodePoint.ofChar '}' :: CodePoint.ofChar '}' :: post) = some e.length)
    (hpre : Text.holds ['{', '{'] pre = false) (hlast : pre.getLast? ≠ some (CodePoint.ofChar '{'))
    (hpost : Text.holds ['{', '{'] post = false) :
    Interpolated.split (interpolated pre e post)
      = some ⟨pre, [(⟨e, pre.length + 2⟩, post)]⟩ := by
  have hcut : Interpolated.cut pre.length
      (CodePoint.ofChar '{' :: CodePoint.ofChar '{'
        :: (e ++ CodePoint.ofChar '}' :: CodePoint.ofChar '}' :: post))
      = ⟨[], [(⟨e, pre.length + 2⟩, post)]⟩ := by
    have hdrop : (CodePoint.ofChar '{'
        :: (e ++ CodePoint.ofChar '}' :: CodePoint.ofChar '}' :: post)).drop (e.length + 3)
        = post := by
      rw [List.drop_succ_cons, List.drop_length_add_append]
      rfl
    rw [Interpolated.cut, if_pos ⟨rfl, rfl⟩, List.drop_succ_cons, List.drop_zero, hcode]
    dsimp only
    rw [List.take_left, hdrop, Interpolated.cut_of_unopened hpost]
    rfl
  have hwhole := Interpolated.cut_append
    (t := CodePoint.ofChar '{' :: CodePoint.ofChar '{'
        :: (e ++ CodePoint.ofChar '}' :: CodePoint.ofChar '}' :: post))
    hpre (fun h => absurd h hlast) 0
  rw [Nat.zero_add, hcut, List.append_nil] at hwhole
  have htext : interpolated pre e post
      = pre ++ (CodePoint.ofChar '{' :: CodePoint.ofChar '{'
        :: (e ++ CodePoint.ofChar '}' :: CodePoint.ofChar '}' :: post)) := by
    unfold interpolated
    rw [List.append_assoc]
    rfl
  unfold Interpolated.split
  rw [htext, hwhole]
  rfl

-- ============================================================ reading

/-- The searches for the end of code agree with the lexer about what is
quoted. Code between the braces of an interpolation is read as it would be
alone, with its faults as far to the right as it stands, unless it is
blank or has two closing braces side by side or one at its end. And the
parameters of a block end at the parenthesis behind them when their own
parentheses are balanced and no brace opens among them. -/
theorem code_enclosed {e : Text} {ts : List (Token Text)} (hts : tokenize 0 e = .ok ts) :
    (Text.isBlank e = false →
      (∀ p, Mark.closeBrace.at p ∈ ts → Mark.closeBrace.at (p + 1) ∉ ts) →
      (∀ p, Mark.closeBrace.at p ∈ ts → p + 1 ≠ e.length) →
      ∀ pre post, Text.holds ['{', '{'] pre = false →
        pre.getLast? ≠ some (CodePoint.ofChar '{') → Text.holds ['{', '{'] post = false →
        (∀ x, Expr.parseBinding e = .ok x → ∃ y, x = .sourced y e
          ∧ Expr.parseInterpolated (interpolated pre e post)
            = .ok (some (.sourced (.interpolation [pre, post] [y]) (interpolated pre e post))))
        ∧ ∀ err, Expr.parseBinding e = .error err →
          Expr.parseInterpolated (interpolated pre e post) = .error (err.move (pre.length + 2)))
    ∧ ((∀ p, Mark.openBrace.at p ∉ ts) → Balanced ts →
      ∀ p q, (Mask.paramsLength? ((p ++ e ++ CodePoint.ofChar ')' :: q).drop p.length)).map
        (p.length + ·) = some (p.length + e.length)) := by
  refine ⟨?_, ?_⟩
  · intro hblank hapart hlast pre post hpre hpreLast hpost
    have hsplit := split_interpolated (Interpolated.codeLength?_of_tokenize hts hapart hlast post)
      hpre hpreLast hpost
    have hread : Expr.parseInterpolated (interpolated pre e post)
        = (Expr.parseAt (0 + (pre.length + 2)) e).map fun y =>
          some (.sourced (.interpolation [pre, post] [y]) (interpolated pre e post)) := by
      unfold Expr.parseInterpolated
      rw [hsplit]
      show (List.mapM Expr.ofChunk [⟨e, pre.length + 2⟩] >>= _) = _
      rw [List.mapM_cons, List.mapM_nil, Expr.ofChunk, hblank, Nat.zero_add]
      show (Expr.parseAt (pre.length + 2) e >>= _) >>= _ = _
      cases Expr.parseAt (pre.length + 2) e <;> rfl
    have hbinding : Expr.parseBinding e = (Expr.parseAt 0 e).map fun y => .sourced y e := rfl
    rw [hread, hbinding, Expr.parseAt_add]
    refine ⟨fun x hx => ?_, fun err herr => ?_⟩
    · cases hy : Expr.parseAt 0 e with
      | error err => rw [hy] at hx; cases hx
      | ok y =>
          rw [hy] at hx
          cases hx
          exact ⟨y, rfl, rfl⟩
    · cases hy : Expr.parseAt 0 e with
      | ok y => rw [hy] at herr; cases herr
      | error err' =>
          rw [hy] at herr
          cases herr
          rfl
  · intro hbrace hb p q
    rw [List.append_assoc, List.drop_left, Mask.paramsLength?_of_tokenize hts hbrace hb q]
    rfl

/-- Closing braces and parentheses inside strings count for neither search,
and a fault of the code is reported where it stands in the whole text. -/
theorem code_enclosed_quoted :
    let call : Text := ['f', '(', '\'', '}', '}', '\'', ',', ' ', '"', '\\', '"', ')', '"', ')']
    let whole : Text := interpolated ['{', ' '] call ['}', '}']
    let x : Expr := .call (.property .context ['f'])
      [.literal (.text ['}', '}']), .literal (.text ['"', ')'])]
    let broken : Text := ['{', 'a', ':', ' ', '\'', '}', '}', '\'', '}', ' ', 'b']
    Expr.parseInterpolated whole
      = .ok (some (.sourced (.interpolation [['{', ' '], ['}', '}']] [x]) whole))
    ∧ Mask.paramsLength? (call ++ [CodePoint.ofChar ')', CodePoint.ofChar ')']) = some 14
    ∧ Expr.parseInterpolated (interpolated ['{', ' '] broken ['}', '}'])
      = .error (.malformed (.unexpectedToken ['b']) 14) := by
  intro call whole x broken
  have hcall : tokenize 0 call = .ok [⟨.name ['f'], 0⟩, Mark.openParen.at 1, ⟨.text ['}', '}'], 2⟩,
      Mark.comma.at 6, ⟨.text ['"', ')'], 8⟩, Mark.closeParen.at 13] := by decide +kernel
  have hbroken : tokenize 0 broken = .ok [Mark.openBrace.at 0, ⟨.name ['a'], 1⟩, Mark.colon.at 2,
      ⟨.text ['}', '}'], 4⟩, Mark.closeBrace.at 8, ⟨.name ['b'], 10⟩] := by decide +kernel
  refine ⟨?_, ?_, ?_⟩
  · have hx : Expr.parseBinding call = .ok (.sourced x call) := by
      unfold Expr.parseBinding
      rw [Expr.parseAt_eq, hcall]
      cbv
    obtain ⟨y, hy, hwhole⟩ := ((code_enclosed hcall).1 (by decide) (by simp [Mark.at])
      (by simp [Mark.at]) ['{', ' '] ['}', '}'] (by decide) (by decide) (by decide)).1 _ hx
    cases hy
    exact hwhole
  · exact (code_enclosed hcall).2 (by simp [Mark.at]) (by decide) [] [CodePoint.ofChar ')']
  · have hx : Expr.parseBinding broken = .error (.malformed (.unexpectedToken ['b']) 10) := by
      unfold Expr.parseBinding
      rw [Expr.parseAt_eq, hbroken]
      cbv
    exact ((code_enclosed hbroken).1 (by decide) (by simp [Mark.at])
      (by simp [Mark.at, broken]) ['{', ' '] ['}', '}'] (by decide) (by decide)
      (by decide)).2 _ hx

end KeyHarvest
