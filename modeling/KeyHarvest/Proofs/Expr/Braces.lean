/-
Braces inside a substitution. The search for the brace that closes a
substitution counts braces, and goes over the quotations of the code without
looking into them. The lexer has no such count. That both agree on where the
code ends is a fact about the grammar: in the tokens of every expression each
brace has its partner (`paired_of_derives`), since only maps are written with
braces, and a backtick literal is one token whatever is in it.

So code that is read as an expression ends, for the search, right behind its
last token (`codeLength?_of_parseAt`). Code with backticks is left out: the
search does not know them for quotes, and counts the braces between them.
-/
import KeyHarvest.Proofs.Expr.Enclosed
import KeyHarvest.Proofs.Expr.Soundness

namespace KeyHarvest

namespace Grammar

-- ============================================================== pairs

/-- The number of open braces behind a token, if it closes none too
many. -/
def braceCount? (depth : Nat) : TokenKind Text → Option Nat
  | .mark .openBrace => some (depth + 1)
  | .mark .closeBrace =>
      match depth with
      | 0 => none
      | depth + 1 => some depth
  | _ => some depth

/-- Tokens among which every brace has its partner. -/
def Paired (ts : List (TokenKind Text)) : Prop := ∀ depth, ts.foldlM braceCount? depth = some depth

namespace Paired

variable {k : TokenKind Text} {ts us : List (TokenKind Text)}

theorem nil : Paired [] := fun _ => rfl

/-- Paired tokens one behind the other are paired. -/
theorem append (ht : Paired ts) (hu : Paired us) : Paired (ts ++ us) := by
  intro depth
  rw [List.foldlM_append, ht depth]
  exact hu depth

/-- A token that is no brace, in front of others. -/
theorem cons (hk : ∀ depth, braceCount? depth k = some depth) (h : Paired ts) :
    Paired (k :: ts) := by
  intro depth
  rw [List.foldlM_cons, hk depth]
  exact h depth

/-- Braces around paired tokens are paired. -/
theorem braces (h : Paired ts) :
    Paired (.mark .openBrace :: ts ++ [.mark .closeBrace]) := by
  intro depth
  rw [List.cons_append, List.foldlM_cons]
  show (ts ++ [_]).foldlM braceCount? (depth + 1) = _
  rw [List.foldlM_append, h (depth + 1)]
  rfl

/-- Paired parts with commas between them are paired. -/
theorem separated {tss : List (List (TokenKind Text))} (h : ∀ ts ∈ tss, Paired ts) :
    Paired (separated tss) := by
  induction tss with
  | nil => exact nil
  | cons ts tss ih =>
      have hts := h ts List.mem_cons_self
      have htss := ih fun us hus => h us (List.mem_cons_of_mem ts hus)
      cases tss with
      | nil => simpa [Grammar.separated, List.intercalate] using hts
      | cons us tss =>
          rw [separated_cons _ (List.cons_ne_nil _ _)]
          exact hts.append (cons (fun _ => rfl) htss)

/-- Paired parts with a colon before each are paired. -/
theorem introduced {tss : List (List (TokenKind Text))} (h : ∀ ts ∈ tss, Paired ts) :
    Paired (introduced tss) := by
  induction tss with
  | nil => exact nil
  | cons ts tss ih =>
      obtain ⟨hts, htss⟩ := List.forall_mem_cons.1 h
      exact (cons (fun _ => rfl) hts).append (ih htss)

end Paired

/-- A name does not change how many braces are open. -/
theorem IsName.braceCount?_eq {k : TokenKind Text} {n : Text} (h : IsName k n) (depth : Nat) :
    braceCount? depth k = some depth := by
  cases h <;> rfl

/-- The key of a map does not change how many braces are open. -/
theorem IsMapKey.braceCount?_eq {k : TokenKind Text} {key : MapKey} (h : IsMapKey k key)
    (depth : Nat) : braceCount? depth k = some depth := by
  cases h with
  | bare hname => exact hname.braceCount?_eq depth
  | quoted value => rfl

/-- The sign of a prefix does not change how many braces are open. -/
theorem braceCount?_of_prefixed {k : TokenKind Text} {make : Expr → Expr}
    (h : prefixed k = some make) (depth : Nat) : braceCount? depth k = some depth := by
  cases k with
  | mark m => cases h
  | _ => rfl

/-- An atom does not change how many braces are open. -/
theorem braceCount?_of_atom {k : TokenKind Text} {e : Expr} (h : atom k = some e) (depth : Nat) :
    braceCount? depth k = some depth := by
  cases k with
  | mark m => cases h
  | _ => rfl

/-- In the tokens of an expression every brace has its partner. -/
theorem paired_of_derives {s : Symbol} {ts : List (TokenKind Text)} {e : Expr}
    (h : Derives s ts e) : Paired ts := by
  have houter : ∀ {args : List (List (TokenKind Text) × Expr)},
      (∀ a ∈ args, Paired a.1) → ∀ us ∈ args.map Prod.fst, Paired us := by
    intro args hargs us hus
    obtain ⟨a, ha, rfl⟩ := List.mem_map.1 hus
    exact hargs a ha
  induction h with
  | pipe _ ih | cond _ ih | level _ ih | power _ ih | unary _ ih | access _ ih => exact ih
  | apply _ hn _ ih iha =>
      exact ih.append (.cons (fun _ => rfl) (.cons hn.braceCount?_eq (.introduced (houter iha))))
  | choice _ _ _ iht ihy ihn =>
      exact (iht.append (.cons (fun _ => rfl) ihy)).append (.cons (fun _ => rfl) ihn)
  | join _ _ _ ihl ihr => exact ihl.append (.cons (fun _ => rfl) ihr)
  | raise _ _ ihb ihe => exact ihb.append (.cons (fun _ => rfl) ihe)
  | front hk _ ih => exact .cons (braceCount?_of_prefixed hk) ih
  | property _ hn ih => exact ih.append (.cons (fun _ => rfl) (.cons hn.braceCount?_eq .nil))
  | safeProperty _ hn ih => exact ih.append (.cons (fun _ => rfl) (.cons hn.braceCount?_eq .nil))
  | index _ _ ih ihk =>
      exact (ih.append (.cons (fun _ => rfl) ihk)).append (.cons (fun _ => rfl) .nil)
  | safeIndex _ _ ih ihk =>
      exact (ih.append (.cons (fun _ => rfl) (.cons (fun _ => rfl) ihk))).append
        (.cons (fun _ => rfl) .nil)
  | call _ _ ih iha =>
      exact (ih.append (.cons (fun _ => rfl) (.separated (houter iha)))).append
        (.cons (fun _ => rfl) .nil)
  | safeCall _ _ ih iha =>
      exact (ih.append (.cons (fun _ => rfl) (.cons (fun _ => rfl)
        (.separated (houter iha))))).append (.cons (fun _ => rfl) .nil)
  | assertion _ ih => exact ih.append (.cons (fun _ => rfl) .nil)
  | atom hk => exact .cons (braceCount?_of_atom hk) .nil
  | group _ ih => exact .append (.cons (fun _ => rfl) ih) (.cons (fun _ => rfl) .nil)
  | array _ ih =>
      exact .append (.cons (fun _ => rfl) (.separated (houter ih))) (.cons (fun _ => rfl) .nil)
  | map hk _ _ ih =>
      refine .braces (.separated fun us hus => ?_)
      obtain ⟨m, hm, rfl⟩ := List.mem_map.1 hus
      refine .cons (hk m hm).braceCount?_eq ?_
      cases hvalue : m.tokens? with
      | none => exact .nil
      | some vs => exact .cons (fun _ => rfl) (ih m hm vs hvalue)
  | template => exact .cons (fun _ => rfl) .nil

end Grammar

-- ============================================================= search

namespace BacktickBody

open Grammar

/-- Only braces change the depth of a search for a closing one. -/
theorem braceStep_of_ne {c : CodePoint} (hopen : c ≠ '{') (hclose : c ≠ '}') (depth : Nat)
    (t : Text) : braceStep depth (c :: t) = .go depth := by
  unfold braceStep
  dsimp only
  rw [if_neg hopen, if_neg hclose]

/-- The search for the closing brace counts as the tokens do. -/
theorem passes_braceStep {r : Text} {ls : List Lexeme} {p depth last : Nat}
    {ts : List (Token Text)} (hshape : ∀ l ∈ ls, l.Shape) (hts : Lexeme.tokens p ls = .ok ts)
    (hcount : (ts.map Token.kind).foldlM braceCount? depth = some last) :
    Quoted.Passes braceStep r depth ls last := by
  induction ls generalizing p depth ts with
  | nil =>
      cases hts
      cases hcount
      exact .nil _
  | cons l ls ih =>
      obtain ⟨first, rest, hfirst, hrest, rfl⟩ := Lexeme.tokens_cons_eq_ok hts
      have ih : ∀ d, (rest.map Token.kind).foldlM braceCount? d = some last →
          Quoted.Passes braceStep r d ls last := fun d hd =>
        ih (fun l' hl' => hshape l' (List.mem_cons_of_mem l hl')) hrest hd
      -- tokens that are no marks change no depth
      have hother : (∀ m, l.kind ≠ .mark m) → Quoted.Passes braceStep r depth (l :: ls) last := by
        intro hkind
        refine .other hkind (ih depth ?_)
        cases hsome : first with
        | none => rwa [hsome] at hcount
        | some t =>
            have hmark := Lexeme.kind_ne_mark hkind hfirst t hsome
            have hstep : braceCount? depth t.kind = some depth := by
              cases hk : t.kind with
              | mark m => exact absurd hk (hmark m)
              | _ => rfl
            rw [hsome, Option.toList_some, List.singleton_append, List.map_cons,
              List.foldlM_cons, hstep] at hcount
            exact hcount
      cases hshape l List.mem_cons_self with
      | plain hkind _ => exact hother hkind
      | quoted hkind _ _ => exact hother hkind
      | mark m =>
          obtain rfl : some (m.at p) = first := Except.ok.inj hfirst
          rw [Option.toList_some, List.singleton_append, List.map_cons, List.foldlM_cons] at hcount
          by_cases hopen : m = .openBrace
          · subst hopen
            exact .mark rfl (ih (depth + 1) hcount)
          by_cases hclose : m = .closeBrace
          · subst hclose
            cases depth with
            | zero => cases hcount
            | succ depth => exact .mark rfl (ih depth hcount)
          have hstep : braceCount? depth (m.at p).kind = some depth := by
            cases m <;> first | rfl | exact absurd rfl hopen | exact absurd rfl hclose
          rw [hstep] at hcount
          refine .mark (braceStep_of_ne ?_ ?_ _ _) (ih depth hcount)
          · cases m <;> first | decide | exact absurd rfl hopen
          · cases m <;> first | decide | exact absurd rfl hclose

/-- Code that is read as an expression, and has no backticks, ends at the
brace behind it. -/
theorem codeLength?_of_parseAt {start : Nat} {code : Text} {e : Expr}
    (h : Expr.parseAt start code = .ok e) (htick : CodePoint.ofChar '`' ∉ code) (rest : Text) :
    codeLength? (code ++ CodePoint.ofChar '}' :: rest) = some code.length := by
  obtain ⟨ts, hts, -⟩ := bind_eq_ok.1 (Expr.parseAt_eq start code ▸ h)
  obtain ⟨ks, hks, -, hderives⟩ := denotes_of_parseAt h
  obtain rfl : ts.map Token.kind = ks := Except.ok.inj ((kindsOf_eq_ok hts).symm.trans hks)
  have hpaired : Paired (ts.map Token.kind) := by
    by_cases hnil : ts.map Token.kind = []
    · rw [hnil]
      exact .nil
    · exact paired_of_derives (hderives hnil)
  have hstep : ∀ s c t, Neutral c → braceStep s (c :: t) = .go s := by
    intro s c t hc
    refine braceStep_of_ne ?_ ?_ s t
    · rintro rfl; exact hc.2 (by decide)
    · rintro rfl; exact hc.2 (by decide)
  have hknown : ∀ l ∈ Lexeme.split code, ∀ c ∈ l.raw, c ∈ codeQuotes →
      c ∈ [CodePoint.ofChar '\'', CodePoint.ofChar '"'] := by
    intro l hl c hc hquote
    have hmem : c ∈ code := by
      rw [← Lexeme.flatMap_raw_split code]
      exact List.mem_flatMap_of_mem hl hc
    simp only [codeQuotes, List.mem_cons, List.not_mem_nil, or_false] at hquote ⊢
    rcases hquote with hquote | hquote | rfl
    · exact .inl hquote
    · exact .inr hquote
    · exact absurd hmem htick
  have hfind := Quoted.find_of_passes (by decide) hstep (Lexeme.shape_of_tokenize hts) hknown
    (passes_braceStep (r := CodePoint.ofChar '}' :: rest) (Lexeme.shape_of_tokenize hts) hts
      (hpaired 0))
  have hstop : Quoted.find [CodePoint.ofChar '\'', CodePoint.ofChar '"'] braceStep 0 none
      (CodePoint.ofChar '}' :: rest) = some 0 := by
    rw [Quoted.find.eq_def]
    rfl
  rw [Lexeme.flatMap_raw_split, hstop, Option.map_some, Nat.zero_add] at hfind
  exact hfind

end BacktickBody

end KeyHarvest
