/-
Where the texts of an expression come from. A string literal is written
between quotes, and its value is what its body stands for. So every text
that an expression can evaluate to, and every token that a refusal shows,
is either part of the code as it is written or the value of a quotation in
it (`quotes_of_parseAt`, `traceable_of_parseAt`).

This matters where a text has to be written out again. Code that holds no
surrogates gives none but those that a quotation spells with an escape
(`scalar_decode`).

# Refusals

A refusal shows the next token, or it is that of a backtick literal. The
grammar is compared with itself for this: its simulations carry a fact
about every error along (`originSimulation`).
-/
import KeyHarvest.Expr.Literals
import KeyHarvest.Proofs.Expr.Layout
import KeyHarvest.Proofs.Expr.Oversized
import KeyHarvest.Proofs.Expr.Soundness
import KeyHarvest.Proofs.Text.Scalar

namespace KeyHarvest

open Text (Scalar)

-- ============================================================ escapes

namespace Escape

/-- The body of a quotation in which an escape stands for a surrogate. -/
inductive SpellsSurrogate : Text → Prop where
  | here {cs : Text} {u : CodePoint} (hquad : quad? cs = some u) (hu : u.isSurrogate = true) :
      SpellsSurrogate (CodePoint.ofChar '\\' :: cs)
  | behindQuad {cs : Text} {u : CodePoint} (hquad : quad? cs = some u)
      (h : SpellsSurrogate (cs.drop 5)) : SpellsSurrogate (CodePoint.ofChar '\\' :: cs)
  | behindEscape {d : CodePoint} {ds : Text} (hquad : quad? (d :: ds) = none)
      (h : SpellsSurrogate ds) : SpellsSurrogate (CodePoint.ofChar '\\' :: d :: ds)
  | behind {c : CodePoint} {cs : Text} (hc : c ≠ CodePoint.ofChar '\\') (h : SpellsSurrogate cs) :
      SpellsSurrogate (c :: cs)

/-- The named escapes stand for control characters. -/
theorem isSurrogate_meaning {c : CodePoint} (hc : c.isSurrogate = false) :
    (meaning c).isSurrogate = false := by
  have hnamed : ∀ p ∈ named, (CodePoint.ofNat p.2).isSurrogate = false := by decide
  unfold meaning
  split
  · next p hp => exact hnamed p (List.mem_of_find?_eq_some hp)
  · exact hc

/-- An escape of four digits spells a surrogate when it denotes one, or a
later one does. -/
theorem spellsSurrogate_quad {cs : Text} {u : CodePoint} (h : quad? cs = some u) :
    SpellsSurrogate (CodePoint.ofChar '\\' :: cs)
      ↔ u.isSurrogate = true ∨ SpellsSurrogate (cs.drop 5) := by
  constructor
  · intro hs
    cases hs with
    | here hquad hu =>
        rw [h] at hquad
        cases hquad
        exact .inl hu
    | behindQuad hquad hs => exact .inr hs
    | behindEscape hquad hs =>
        rw [h] at hquad
        cases hquad
    | behind hc hs => exact absurd rfl hc
  · intro hs
    rcases hs with hu | hs
    · exact .here h hu
    · exact .behindQuad h hs

/-- Any other escape spells no surrogate. -/
theorem spellsSurrogate_escape {d : CodePoint} {ds : Text} (h : quad? (d :: ds) = none) :
    SpellsSurrogate (CodePoint.ofChar '\\' :: d :: ds) ↔ SpellsSurrogate ds := by
  constructor
  · intro hs
    cases hs with
    | here hquad hu =>
        rw [h] at hquad
        cases hquad
    | behindQuad hquad hs =>
        rw [h] at hquad
        cases hquad
    | behindEscape hquad hs => exact hs
    | behind hc hs => exact absurd rfl hc
  · exact .behindEscape h

/-- A code point by itself spells no surrogate. -/
theorem spellsSurrogate_plain {c : CodePoint} {cs : Text} (hc : c ≠ CodePoint.ofChar '\\') :
    SpellsSurrogate (c :: cs) ↔ SpellsSurrogate cs := by
  constructor
  · intro hs
    cases hs with
    | behind _ hs => exact hs
    | _ => exact absurd rfl hc
  · exact .behind hc

/-- A body without surrogates stands for one exactly when an escape in it
spells one. -/
theorem scalar_decode {body : Text} (hbody : Scalar body) :
    Scalar (decode body) ↔ ¬ SpellsSurrogate body := by
  fun_induction decode body with
  | case1 => simpa using nofun
  | case2 cs u hquad ih =>
      rw [Text.scalar_cons, ih ((Text.scalar_cons.1 hbody).2.drop 5), spellsSurrogate_quad hquad,
        not_or, Bool.not_eq_true]
  | case3 hquad =>
      refine iff_of_true hbody ?_
      intro hs
      cases hs with
      | here hquad hu => cases hquad
      | behindQuad hquad hs => cases hquad
      | behind hc hs => exact absurd rfl hc
  | case4 d ds hquad ih =>
      rw [Text.scalar_cons, Text.scalar_cons] at hbody
      rw [Text.scalar_cons, ih hbody.2.2, spellsSurrogate_escape hquad]
      simp [isSurrogate_meaning hbody.2.1]
  | case5 c cs hc ih =>
      rw [Text.scalar_cons] at hbody
      rw [Text.scalar_cons, ih hbody.2, spellsSurrogate_plain hc]
      simp [hbody.1]

end Escape

-- ========================================================= quotations

/-- The code holds a quotation whose value is `v`. -/
def Quotes (code v : Text) : Prop :=
  ∃ q body, (q = CodePoint.ofChar '\'' ∨ q = CodePoint.ofChar '"') ∧ QuotedBody q body
    ∧ quotation q body <:+: code ∧ v = Escape.decode body

theorem Quotes.mono {code part v : Text} (h : Quotes part v) (hpart : part <:+: code) :
    Quotes code v := by
  obtain ⟨q, body, hq, hbody, hin, hv⟩ := h
  exact ⟨q, body, hq, hbody, hin.trans hpart, hv⟩

/-- The body of a quotation is part of the code. -/
theorem infix_quotation (q : CodePoint) (body : Text) : body <:+: quotation q body :=
  ⟨[q], [q], rfl⟩

namespace Lexeme

/-- A piece is part of the text. -/
theorem raw_infix_of_mem_split {t : Text} {l : Lexeme} (h : l ∈ split t) : l.raw <:+: t := by
  obtain ⟨before, after, hsplit⟩ := List.append_of_mem h
  refine ⟨before.flatMap raw, after.flatMap raw, ?_⟩
  rw [← flatMap_raw_split t, hsplit]
  simp

/-- Pieces are refused because one of them is. -/
theorem exists_token?_of_tokens_error {p : Nat} {ls : List Lexeme} {e : ExprError}
    (h : tokens p ls = .error e) : ∃ l ∈ ls, ∃ q, l.token? q = .error e := by
  induction ls generalizing p with
  | nil => cases h
  | cons l ls ih =>
      rw [tokens] at h
      cases hl : l.token? p with
      | error f =>
          rw [hl] at h
          cases h
          exact ⟨l, List.mem_cons_self, p, hl⟩
      | ok first =>
          rw [hl] at h
          obtain ⟨x, hx, q, hq⟩ := ih (bind_pure_eq_error.1 h)
          exact ⟨x, List.mem_cons_of_mem l hx, q, hq⟩

end Lexeme

/-- An item of a list has its partner in a list that is related. -/
theorem exists_of_forall₂ {α β : Type} {R : α → β → Prop} {as : List α} {bs : List β}
    (h : List.Forall₂ R as bs) {a : α} (ha : a ∈ as) : ∃ b ∈ bs, R a b := by
  induction h with
  | nil => cases ha
  | @cons x y xs ys hxy _ ih =>
      rcases List.mem_cons.1 ha with rfl | ha
      · exact ⟨y, List.mem_cons_self, hxy⟩
      · obtain ⟨b, hb, hab⟩ := ih ha
        exact ⟨b, List.mem_cons_of_mem y hb, hab⟩

/-- Every token is read from a part of the text. -/
theorem exists_begins_of_tokenize {start : Nat} {t : Text} {ts : List (Token Text)}
    (hts : tokenize start t = .ok ts) {x : Token Text} (hx : x ∈ ts) :
    ∃ raw rest, raw <:+: t ∧ x.kind.Begins rest raw := by
  obtain ⟨raw, hraw, rest, hbegins⟩ :=
    exists_of_forall₂ (Lexeme.forall₂_spellings hts) (List.mem_map_of_mem hx)
  obtain ⟨l, hl, rfl⟩ := List.mem_map.1 hraw
  exact ⟨l.raw, rest, Lexeme.raw_infix_of_mem_split (List.mem_of_mem_filter hl), hbegins⟩

/-- The kinds of the tokens are those of the tokens. -/
theorem exists_tokenize_of_kindsOf {t : Text} {ks : List (TokenKind Text)}
    (h : kindsOf t = .ok ks) : ∃ ts, tokenize 0 t = .ok ts ∧ ts.map Token.kind = ks := by
  unfold kindsOf at h
  cases hts : tokenize 0 t with
  | error f =>
      rw [hts] at h
      cases h
  | ok ts =>
      rw [hts] at h
      exact ⟨ts, rfl, Except.ok.inj h⟩

/-- A text among the tokens is quoted. -/
theorem quotes_of_mem_tokenize {start p : Nat} {t v : Text} {ts : List (Token Text)}
    (hts : tokenize start t = .ok ts) (hv : ⟨.text v, p⟩ ∈ ts) : Quotes t v := by
  obtain ⟨raw, rest, hin, q, body, hq, hbody, rfl, -, hdecode⟩ := exists_begins_of_tokenize hts hv
  exact ⟨q, body, hq, hbody, hin, hdecode⟩

/-- A template body among the tokens stands in the text. -/
theorem infix_of_template_mem_tokenize {start p : Nat} {t body : Text} {ts : List (Token Text)}
    (hts : tokenize start t = .ok ts) (hbody : ⟨.template body, p⟩ ∈ ts) : body <:+: t := by
  obtain ⟨raw, rest, hin, -, rfl, -⟩ := exists_begins_of_tokenize hts hbody
  exact (infix_quotation _ body).trans hin

-- =========================================================== literals

namespace Expr

/-- A literal of several trees is one of one of them. -/
theorem mem_literalsOf {l : Literal} {es : List Expr} :
    l ∈ literalsOf es ↔ ∃ e ∈ es, l ∈ e.literals := by
  induction es with
  | nil => simp [literalsOf]
  | cons e es ih => simp [literalsOf, ih]

end Expr

namespace Grammar

/-- A token of a part is one of the parts put together. -/
theorem mem_separated {τ : Type} {k : TokenKind τ} {us : List (TokenKind τ)}
    {uss : List (List (TokenKind τ))} (hus : us ∈ uss) (hk : k ∈ us) : k ∈ separated uss := by
  induction uss with
  | nil => cases hus
  | cons vs vss ih =>
      cases vss with
      | nil =>
          rw [List.mem_singleton] at hus
          subst hus
          simpa [separated] using hk
      | cons ws wss =>
          rw [separated_cons vs (List.cons_ne_nil ws wss)]
          rcases List.mem_cons.1 hus with rfl | hus
          · exact List.mem_append_left _ hk
          · exact List.mem_append_right _ (List.mem_cons_of_mem _ (ih hus))

/-- The string literals that an expression can evaluate to are tokens of
it. -/
theorem Derives.text_mem {symbol : Symbol} {ts : List (TokenKind Text)} {e : Expr}
    (h : Derives symbol ts e) {v : Text} (hv : .text v ∈ e.literals) : .text v ∈ ts := by
  -- literals at value positions only, so most forms keep those of some parts and drop the others
  induction h with
  | pipe _ ih | cond _ ih | level _ ih | power _ ih | unary _ ih | access _ ih => exact ih hv
  | apply _ _ _ ih =>
      rw [Expr.literals] at hv
      exact List.mem_append_left _ (ih hv)
  | choice _ _ _ _ ihy ihn =>
      rw [Expr.literals, List.mem_append] at hv
      rcases hv with hv | hv
      · have := ihy hv
        simp [this]
      · have := ihn hv
        simp [this]
  | join _ _ _ ihl ihr | raise _ _ ihl ihr =>
      rw [Expr.literals, List.mem_append] at hv
      rcases hv with hv | hv
      · exact List.mem_append_left _ (ihl hv)
      · exact List.mem_append_right _ (List.mem_cons_of_mem _ (ihr hv))
  | front hk _ _ =>
      unfold prefixed at hk
      split at hk <;> cases hk <;> cases hv
  | property | safeProperty | index | safeIndex | call | safeCall | assertion | template =>
      cases hv
  | @atom k e hk =>
      unfold Grammar.atom at hk
      split at hk <;> cases hk <;> simp_all [Expr.literals]
  | group _ ih =>
      have := ih hv
      simp [this]
  | @array items _ ih =>
      rw [Expr.literals, Expr.mem_literalsOf] at hv
      obtain ⟨e, he, hv⟩ := hv
      obtain ⟨a, ha, rfl⟩ := List.mem_map.1 he
      have := mem_separated (List.mem_map_of_mem ha) (ih a ha hv)
      simp [this]
  | @map entries _ _ hs ih =>
      rw [Expr.literals, Expr.mem_literalsOf] at hv
      obtain ⟨e, he, hv⟩ := hv
      obtain ⟨m, hm, rfl⟩ := List.mem_map.1 he
      cases htokens : m.tokens? with
      | none =>
          rw [(hs m hm htokens).2] at hv
          cases hv
      | some us =>
          have hmem : .text v ∈ m.tokens := by
            rw [MapEntry.tokens, htokens]
            exact List.mem_cons_of_mem _ (List.mem_cons_of_mem _ (ih m hm us htokens hv))
          have := mem_separated (List.mem_map_of_mem hm) hmem
          simp [this]

end Grammar

namespace Expr

/-- A text that an expression can evaluate to is the value of a quotation
in its code. -/
theorem quotes_of_parseAt {start : Nat} {t v : Text} {e : Expr} (h : parseAt start t = .ok e)
    (hv : .text v ∈ e.literals) : Quotes t v := by
  obtain ⟨ks, hks, hempty, hderives⟩ := Grammar.denotes_of_parseAt h
  obtain ⟨ts, hts, rfl⟩ := exists_tokenize_of_kindsOf hks
  by_cases hnil : ts.map Token.kind = []
  · rw [hempty hnil] at hv
    cases hv
  · obtain ⟨x, hx, hkind⟩ := List.mem_map.1 ((hderives hnil).text_mem hv)
    obtain ⟨k, p⟩ := x
    cases hkind
    exact quotes_of_mem_tokenize hts hx

/-- A text in the tree of a binding is quoted in it. -/
theorem quotes_of_parseBinding {t v : Text} {e : Expr} (h : parseBinding t = .ok e)
    (hv : .text v ∈ e.literals) : Quotes t v := by
  obtain ⟨x, hx, h⟩ := bind_eq_ok.1 h
  cases h
  exact quotes_of_parseAt hx hv

end Expr

-- ============================================================= chunks

/-- The code of an interpolation is part of the text. -/
theorem Interpolated.code_isInfix {start : Nat} {t : Text} {c : Chunk}
    (h : c ∈ (cut start t).chunks) : c.code <:+: t := by
  fun_induction cut start t with
  | case1 => cases h
  | case2 => cases h
  | case3 start x cs _ n _ ih =>
      rcases List.mem_cons.1 h with rfl | h
      · have hin : (cs.drop 1).take n <:+: cs :=
          (List.take_prefix n _).isInfix.trans (List.drop_suffix 1 cs).isInfix
        exact hin.trans (List.suffix_cons x cs).isInfix
      · have hin : c.code <:+: cs := (ih h).trans (List.drop_suffix _ cs).isInfix
        exact hin.trans (List.suffix_cons x cs).isInfix
  | case4 start x cs _ ih => exact (ih h).trans (List.suffix_cons x cs).isInfix

/-- The code of a substitution is part of the backtick literal. -/
theorem BacktickBody.code_isInfix {start : Nat} {t : Text} {p : Substitution}
    (h : p ∈ (split start t).parts) : p.code <:+: t := by
  fun_induction split start t generalizing p with
  | case1 => cases h
  | case2 start cs ih =>
      obtain ⟨p', hp', hcode⟩ := exists_code_of_mem_push h
      have hin : p.code <:+: cs := hcode ▸ (ih hp').trans (List.drop_suffix 1 cs).isInfix
      exact hin.trans (List.suffix_cons _ cs).isInfix
  | case3 => cases h
  | case4 start x cs _ _ n _ ih =>
      rcases List.mem_cons.1 h with rfl | h
      · have hin : (cs.drop 1).take n <:+: cs :=
          (List.take_prefix n _).isInfix.trans (List.drop_suffix 1 cs).isInfix
        exact hin.trans (List.suffix_cons x cs).isInfix
      · have hin : p.code <:+: cs := (ih h).trans (List.drop_suffix _ cs).isInfix
        exact hin.trans (List.suffix_cons x cs).isInfix
  | case5 start x cs _ _ ih =>
      obtain ⟨p', hp', hcode⟩ := exists_code_of_mem_push h
      exact hcode ▸ (ih hp').trans (List.suffix_cons x cs).isInfix

/-- The results of a loop, one for each of its inputs. -/
theorem forall₂_of_mapM_eq_ok {α β ε : Type} {f : α → Except ε β} {l : List α} {bs : List β}
    (h : l.mapM f = .ok bs) : List.Forall₂ (fun a b => f a = .ok b) l bs := by
  induction l generalizing bs with
  | nil =>
      cases h
      exact .nil
  | cons a l ih =>
      rw [List.mapM_cons] at h
      obtain ⟨x, hx, h⟩ := bind_eq_ok.1 h
      obtain ⟨xs, hxs, h⟩ := bind_eq_ok.1 h
      cases h
      exact .cons hx (ih hxs)

/-- A list is mapped when all its items are. -/
theorem mapM_eq_ok_of_forall₂ {α β ε : Type} {f : α → Except ε β} {l : List α} {bs : List β}
    (h : List.Forall₂ (fun a b => f a = .ok b) l bs) : l.mapM f = .ok bs := by
  induction h with
  | nil => rfl
  | cons hx _ ih =>
      rw [List.mapM_cons, hx, ih]
      rfl

/-- What is in a mapped list comes from an item. -/
theorem mem_of_mapM_eq_ok {α β ε : Type} {f : α → Except ε β} {l : List α} {bs : List β}
    (h : l.mapM f = .ok bs) {b : β} (hb : b ∈ bs) : ∃ a ∈ l, f a = .ok b := by
  have hflip : List.Forall₂ (fun b a => f a = .ok b) bs l := (forall₂_of_mapM_eq_ok h).flip
  exact exists_of_forall₂ hflip hb

namespace Expr

/-- A text in the tree of an interpolation is quoted in it. -/
theorem quotes_of_parseInterpolated {t v : Text} {e : Expr}
    (h : parseInterpolated t = .ok (some e)) (hv : .text v ∈ e.literals) : Quotes t v := by
  unfold parseInterpolated Interpolated.split at h
  by_cases hrest : (Interpolated.cut 0 t).rest.isEmpty = true
  · rw [if_pos hrest] at h
    cases h
  · rw [if_neg hrest] at h
    obtain ⟨items, hitems, h⟩ := bind_eq_ok.1 h
    cases h
    rw [literals, literals, mem_literalsOf] at hv
    obtain ⟨item, hitem, hv⟩ := hv
    obtain ⟨c, hc, hparse⟩ := mem_of_mapM_eq_ok hitems hitem
    unfold ofChunk at hparse
    split at hparse
    · cases hparse
    · exact (quotes_of_parseAt hparse hv).mono (Interpolated.code_isInfix hc)

end Expr

-- =========================================================== refusals

namespace Grammar

/-- What an error can be when `ts` is read: the refusal of a backtick
literal among the tokens, or a fault that shows no code point, and a token
only if it is one of them. -/
inductive Traced (ts : List Item) : ExprError → Prop where
  | literal {t : Item} {e : ExprError} (ht : t ∈ ts) (he : refusalOf? t = some e) : Traced ts e
  | fault {fault : ExprFault} {p : Nat} (hc : ∀ c, fault ≠ .unexpectedCharacter c)
      (hv : ∀ v, fault = .unexpectedToken v → ∃ t ∈ ts, v = shown t) :
      Traced ts (.malformed fault p)

/-- A part of the tokens is read like itself, and every error on the way
is traced. -/
theorem originSimulation (stop : Nat) (all : List Item) :
    Simulation stop stop (fun e f => e = f ∧ Traced all e) (fun ts us => ts = us ∧ ts ⊆ all) where
  front := by
    intro ts us h
    obtain ⟨rfl, hts⟩ := h
    cases ts with
    | nil =>
        refine .ended rfl rfl (e := .malformed .unexpectedEnd stop)
          (f := .malformed .unexpectedEnd stop) ?_ ?_ ⟨rfl, .fault nofun nofun⟩
        · rw [primary]
          rfl
        · rw [primary]
          rfl
    | cons t r =>
        refine .step ?_ ⟨rfl, fun x hx => hts (List.mem_cons_of_mem t hx)⟩
        cases ht : refusalOf? t with
        | none => exact kin_self ht
        | some e =>
            have htraced : Traced all e := .literal (hts List.mem_cons_self) ht
            obtain ⟨⟨body, outcome⟩, p, rfl, ho⟩ := exists_of_refusalOf? ht
            refine .literal ?_
            rw [show outcome = _ from ho]
            exact ⟨rfl, htraced⟩
  fault := by
    intro ts us fault h hf
    obtain ⟨rfl, hts⟩ := h
    refine ⟨rfl, .fault hf.ne_character ?_⟩
    intro v hv
    subst hv
    obtain ⟨t, r, rfl, hshown⟩ := hf.shows
    exact ⟨t, hts List.mem_cons_self, hshown⟩

/-- Errors of a whole token list are traced. -/
theorem traced_of_whole {stop : Nat} {ts : List Item} {e : ExprError}
    (h : whole stop ts = .error e) : Traced ts e := by
  have hread := alike_read (originSimulation stop ts) .pipe ⟨rfl, List.Subset.refl ts⟩
  cases ts with
  | nil => cases h
  | cons t r =>
      rw [whole] at h
      change Alike _ _ (pipe stop (t :: r)) (pipe stop (t :: r)) at hread
      cases hp : pipe stop (t :: r) with
      | error f =>
          rw [hp] at h hread
          cases h
          exact hread.2
      | ok x =>
          rw [hp] at h hread
          obtain ⟨value, rest, hshorter⟩ := x
          cases rest with
          | nil => cases h
          | cons u v =>
              cases h
              refine .fault (by rintro _ ⟨⟩) ?_
              intro w hw
              cases hw
              exact ⟨u, hread.2.2 List.mem_cons_self, rfl⟩

end Grammar

namespace ExprFault

/-- A fault is worded without the code, but for the code point or token
that it shows. -/
theorem scalar_message {fault : ExprFault} (hc : ∀ c, fault ≠ .unexpectedCharacter c)
    (hv : ∀ v, fault = .unexpectedToken v → Scalar v) : Scalar fault.message := by
  cases fault with
  | unexpectedCharacter c => exact absurd rfl (hc c)
  | unexpectedToken v => simp [message, hv v rfl]
  | unexpectedKeyword word => cases word <;> simp [message, Keyword.spelling]
  | _ => simp [message]

/-- A fault shows nothing that is not in the code or quoted there. -/
def Traceable (code : Text) (fault : ExprFault) : Prop :=
  Scalar fault.message ∨ ∃ v, fault = .unexpectedToken v ∧ Quotes code v

theorem Traceable.mono {code part : Text} {fault : ExprFault} (h : Traceable part fault)
    (hpart : part <:+: code) : Traceable code fault := by
  rcases h with h | ⟨v, hv, hquotes⟩
  · exact .inl h
  · exact .inr ⟨v, hv, hquotes.mono hpart⟩

end ExprFault

namespace Expr

open ExprFault (Traceable)

/-- What tokens are shown as is the code, or the value of a quotation. -/
theorem scalar_shown {start : Nat} {t : Text} (ht : Scalar t) {ts : List (Token Text)}
    (hts : tokenize start t = .ok ts) {x : Token Text} (hx : x ∈ ts) :
    Scalar (Grammar.shown (toItem x)) ∨ Quotes t (Grammar.shown (toItem x)) := by
  obtain ⟨raw, rest, hin, hbegins⟩ := exists_begins_of_tokenize hts hx
  obtain ⟨k, p⟩ := x
  cases k with
  | keyword word =>
      obtain ⟨-, rfl⟩ := hbegins
      exact .inl (ht.part hin)
  | name n =>
      obtain ⟨-, rfl, -⟩ := hbegins
      exact .inl (ht.part hin)
  | text v => exact .inr (quotes_of_mem_tokenize hts hx)
  | number n => exact .inl n.scalar_text
  | template body => exact .inl (ht.part (infix_of_template_mem_tokenize hts hx))
  | operator op =>
      obtain ⟨rfl, -⟩ := hbegins
      exact .inl (ht.part hin)
  | mark m =>
      obtain ⟨rfl, -⟩ := hbegins
      exact .inl (ht.part hin)

/-- A token that is refused shows nothing that is not in the text. -/
theorem traceable_of_token? {t : Text} (ht : Scalar t) {l : Lexeme} (hl : l ∈ Lexeme.split t)
    {p q : Nat} {fault : ExprFault} (h : l.token? p = .error (.malformed fault q)) :
    Traceable t fault := by
  have hraw := ht.part (Lexeme.raw_infix_of_mem_split hl)
  left
  unfold Lexeme.token? at h
  split at h
  case h_8 =>
    split at h
    · next c cs hcs =>
        rw [hcs, Text.scalar_cons] at hraw
        split at h
        · cases h
          exact ExprFault.scalar_message nofun nofun
        · cases h
          simp [ExprFault.message, hraw.1]
    · cases h
  case h_4 =>
    unfold Lexeme.numeral at h
    dsimp only at h
    split at h
    · split at h <;> cases h
    · cases h
  case h_5 => split at h <;> cases h
  all_goals cases h

/-- A refused expression shows its code and the values quoted in it, and
nothing else. -/
theorem traceable_of_parseAt {start p : Nat} {t : Text} (ht : Scalar t) {fault : ExprFault}
    (h : parseAt start t = .error (.malformed fault p)) : Traceable t fault := by
  -- on the length of the text: the code of a substitution is shorter than its literal
  induction hk : t.length using Nat.strongRecOn generalizing start p t with
  | _ k rec =>
      subst hk
      rw [parseAt_eq] at h
      cases hts : tokenize start t with
      | error e =>
          rw [hts] at h
          cases h
          -- no token could be read
          obtain ⟨l, hl, q, hq⟩ := Lexeme.exists_token?_of_tokens_error hts
          exact traceable_of_token? ht hl hq
      | ok ts =>
          rw [hts] at h
          cases Grammar.traced_of_whole h with
          | literal hitem hrefusal =>
              -- a fault inside a backtick literal, whose code stands in the text
              obtain ⟨b, q, rfl, hb⟩ := Grammar.exists_of_refusalOf? hrefusal
              obtain ⟨x, hx, htoken⟩ := List.mem_map.1 hitem
              obtain ⟨body, rfl, rfl⟩ := toItem_eq_template htoken
              have hbody := infix_of_template_mem_tokenize hts hx
              change readBody (q + 1) body = _ at hb
              unfold readBody at hb
              cases hitems : (BacktickBody.split 0 body).parts.mapM
                  (fun part => parseAt (q + 1 + part.offset) part.code) with
              | error e =>
                  rw [hitems] at hb
                  cases hb
                  rw [← refusal?_eq_some, refusal?_mapM] at hitems
                  obtain ⟨part, hpart, hcode⟩ := List.exists_of_findSome?_eq_some hitems
                  have hin := (BacktickBody.code_isInfix hpart).trans hbody
                  have hlt : part.code.length < t.length := Nat.lt_trans
                    (BacktickBody.code_length_lt hpart) (template_length_lt hts hx)
                  exact (rec _ hlt (ht.part hin) (refusal?_eq_some.1 hcode) rfl).mono hin
              | ok items =>
                  rw [hitems] at hb
                  change ofBody _ _ _ = _ at hb
                  unfold ofBody at hb
                  split at hb
                  · cases hb
                    exact .inl (ExprFault.scalar_message nofun nofun)
                  · cases hb
          | fault hc hv =>
              -- a fault of the grammar shows at most one token
              by_cases hshown : ∃ v, fault = .unexpectedToken v
              · obtain ⟨v, rfl⟩ := hshown
                obtain ⟨item, hitem, rfl⟩ := hv v rfl
                obtain ⟨x, hx, rfl⟩ := List.mem_map.1 hitem
                rcases scalar_shown ht hts hx with hscalar | hquotes
                · left
                  simp [ExprFault.message, hscalar]
                · exact .inr ⟨_, rfl, hquotes⟩
              · left
                refine ExprFault.scalar_message hc ?_
                intro v hfault
                exact absurd ⟨v, hfault⟩ hshown

/-- A binding that is refused shows nothing that is not in it. -/
theorem traceable_of_parseBinding {p : Nat} {t : Text} (ht : Scalar t) {fault : ExprFault}
    (h : parseBinding t = .error (.malformed fault p)) : Traceable t fault :=
  traceable_of_parseAt ht (bind_pure_eq_error.1 h)

/-- An interpolation that is refused shows nothing that is not in it. -/
theorem traceable_of_parseInterpolated {p : Nat} {t : Text} (ht : Scalar t) {fault : ExprFault}
    (h : parseInterpolated t = .error (.malformed fault p)) : Traceable t fault := by
  unfold parseInterpolated Interpolated.split at h
  by_cases hrest : (Interpolated.cut 0 t).rest.isEmpty = true
  · rw [if_pos hrest] at h
    cases h
  · rw [if_neg hrest] at h
    have hchunks := bind_pure_eq_error.1 h
    rw [← refusal?_eq_some, refusal?_mapM] at hchunks
    obtain ⟨c, hc, hcode⟩ := List.exists_of_findSome?_eq_some hchunks
    rw [refusal?_eq_some] at hcode
    unfold ofChunk at hcode
    split at hcode
    · cases hcode
      exact .inl (ExprFault.scalar_message nofun nofun)
    · have hin := Interpolated.code_isInfix hc
      exact (traceable_of_parseAt (ht.part hin) hcode).mono hin

end Expr

end KeyHarvest
