/-
What every tree that is read looks like. A tree has more shapes than
reading makes: a map could have keys without values, an interpolation
could stand inside a call, the empty expression could be an operand.
`Proper` says for each kind of node what it may hold and where it may
stand, and no node of a tree that is read breaks it, at any depth
(`proper_of_parse`).

# The argument

Being proper everywhere (`WellFormedAt`) is being proper at the root and
everywhere below each child (`wellFormedAt_iff`). So a rule of the grammar
has to show that the one node it makes is proper. Of the tokens it only
needs that names have the form of names, and that backtick literals stand
in the text (`Sourced`). No rule makes the empty expression: it comes from
code without tokens, and that is blank code.
-/
import KeyHarvest.Proofs.Expr.Origin
import KeyHarvest.Proofs.Number.Nearest

namespace KeyHarvest

-- ========================================================== positions

namespace Expr

/-- Where a node stands in a tree. -/
inductive Position where
  /-- The tree itself. -/
  | root
  /-- Below the root that keeps the source. -/
  | body
  /-- What a plain property is read from. -/
  | receiver
  /-- In a substitution of a backtick literal. -/
  | substitution
  /-- Anywhere else. -/
  | operand

/-- The children of a node and their positions. -/
def children : Expr → List (Position × Expr)
  | .empty | .context | .this | .literal _ => []
  | .array items | .map _ items | .interpolation _ items => items.map (.operand, ·)
  | .pipe input _ args => (input :: args).map (.operand, ·)
  | .conditional test yes no => [test, yes, no].map (.operand, ·)
  | .binary _ left right => [left, right].map (.operand, ·)
  | .unary _ e | .not e | .typeof e | .assertion e => [(.operand, e)]
  | .property e _ => [(.receiver, e)]
  | .safeProperty e _ => [(.operand, e)]
  | .index e key | .safeIndex e key => [e, key].map (.operand, ·)
  | .call e args | .safeCall e args => (e :: args).map (.operand, ·)
  | .template _ items => items.map (.substitution, ·)
  | .sourced e _ => [(.body, e)]

/-- The nodes of a tree and their positions. -/
inductive Occurs (start : Position) (root : Expr) : Position → Expr → Prop where
  | self : Occurs start root start root
  | child {pos pos' : Position} {e e' : Expr} (h : Occurs start root pos e)
      (hc : (pos', e') ∈ e.children) : Occurs start root pos' e'

end Expr

-- ============================================================ literals

/-- The value that a number is, infinity included. -/
def Number.worth : Number → WithTop ℚ
  | .integer n => ((n : ℚ) : WithTop ℚ)
  | .float (.finite m q) => (Binary64.worth m q : WithTop ℚ)
  | .float .infinite => ⊤

/-- No number of a source is negative, as a sign is an operator. -/
theorem Number.worth_nonneg (n : Number) : 0 ≤ n.worth := by
  cases n with
  | integer n => exact WithTop.coe_nonneg.2 (Nat.cast_nonneg n)
  | float x =>
      cases x with
      | infinite => exact le_top
      | finite m q =>
          refine WithTop.coe_nonneg.2 (mul_nonneg (Nat.cast_nonneg m) ?_)
          exact (Binary64.two_zpow_pos q).le

namespace Literal

/-- The kinds of literals; null and undefined are kinds of their own. -/
inductive Kind where
  | plain | null | undefined

/-- The kind of a literal. -/
def kind : Literal → Kind
  | .text _ | .number _ | .bool _ => .plain
  | .null => .null
  | .undefined => .undefined

/-- The values that a literal can have. -/
inductive Value where
  | text (t : Text)
  | number (x : WithTop ℚ)
  | bool (b : Bool)

/-- The value of a literal, if it has one. -/
def value? : Literal → Option Value
  | .text t => some (.text t)
  | .number n => some (.number n.worth)
  | .bool b => some (.bool b)
  | .null | .undefined => none

/-- A literal lacks a value exactly when its kind says so, and a number is
not negative. -/
structure IsProper (l : Literal) : Prop where
  valueless : l.value? = none ↔ l.kind = .null ∨ l.kind = .undefined
  nonneg : ∀ x, l.value? = some (.number x) → 0 ≤ x

/-- Every literal is proper. -/
theorem isProper (l : Literal) : l.IsProper where
  valueless := by cases l <;> simp [value?, kind]
  nonneg := by
    intro x hx
    cases l with
    | number n =>
        cases hx
        exact n.worth_nonneg
    | _ => cases hx

end Literal

-- ======================================================== proper nodes

namespace Expr

/-- The binary operators of the grammar, from the loosest level on. -/
def binarySpellings : List Text :=
  ["||", "&&", "??", "==", "!=", "===", "!==", "<", ">", "<=", ">=", "+", "-", "*", "/", "%", "**"]

/-- The prefix operators that a unary node can have. -/
def unarySpellings : List Text := ["-", "+", "void"]

/-- The spelling of a binary operator is one of the grammar's. -/
theorem mem_binarySpellings (op : BinaryOp) : op.spelling ∈ binarySpellings := by
  cases op <;> decide

/-- The spelling of a prefix operator is one of the grammar's. -/
theorem mem_unarySpellings (op : UnaryOp) : op.spelling ∈ unarySpellings := by
  cases op <;> decide

/-- The chunks and items are those of a backtick literal in the text: each
item is the tree of the code of a substitution, and it is empty exactly
when the code is blank. -/
def Fills (t : Text) (chunks : List Text) (items : List Expr) : Prop :=
  ∃ raw parts last, quotation '`' raw <:+: t ∧ BacktickBody.split 0 raw = ⟨parts, .ok last⟩
    ∧ chunks = parts.map (Escape.decode ·.before) ++ [Escape.decode last]
    ∧ List.Forall₂ (fun part item => Grammar.Denotes part.code item
        ∧ (item = .empty ↔ Text.isBlank part.code = true)) parts items

/-- What a node at a position of the tree of a text has to be like. -/
def Proper (t : Text) (pos : Position) : Expr → Prop
  | .empty => pos = .body ∧ Text.isBlank t = true ∨ pos = .substitution
  | .context => pos = .receiver
  | .literal l => l.IsProper
  | .map keys values => values.length = keys.length
  | .interpolation strings items =>
      pos = .body ∧ strings.length = items.length + 1 ∧ .empty ∉ items
  | .pipe _ name _ | .property _ name | .safeProperty _ name => IsWord name
  | .binary op _ _ => op.spelling ∈ binarySpellings
  | .unary op _ => op.spelling ∈ unarySpellings
  | .template chunks items => chunks.length = items.length + 1 ∧ Fills t chunks items
  | .sourced _ _ => pos = .root
  | .this | .array _ | .conditional _ _ _ | .not _ | .typeof _ | .assertion _ | .index _ _
  | .safeIndex _ _ | .call _ _ | .safeCall _ _ => True

/-- Every node of a tree is proper. -/
def WellFormedAt (t : Text) (start : Position) (e : Expr) : Prop :=
  ∀ pos x, Occurs start e pos x → Proper t pos x

/-- A node of a tree is the root, or it is in the tree of a child. -/
theorem occurs_iff {start pos : Position} {root x : Expr} :
    Occurs start root pos x
      ↔ pos = start ∧ x = root ∨ ∃ c ∈ root.children, Occurs c.1 c.2 pos x := by
  constructor
  · intro h
    induction h with
    | self => exact .inl ⟨rfl, rfl⟩
    | @child pos pos' e e' _ hc ih =>
        rcases ih with ⟨rfl, rfl⟩ | ⟨c, hroot, h⟩
        · exact .inr ⟨(pos', e'), hc, .self⟩
        · exact .inr ⟨c, hroot, h.child hc⟩
  · intro h
    rcases h with ⟨rfl, rfl⟩ | ⟨c, hroot, h⟩
    · exact .self
    · induction h with
      | self => exact .child .self hroot
      | child _ hc ih => exact ih.child hc

/-- A tree is well-formed when its root is proper and its children are
well-formed. -/
theorem wellFormedAt_iff {t : Text} {pos : Position} {e : Expr} :
    WellFormedAt t pos e ↔ Proper t pos e ∧ ∀ c ∈ e.children, WellFormedAt t c.1 c.2 := by
  constructor
  · intro h
    refine ⟨h pos e .self, ?_⟩
    intro c hc pos' x hx
    exact h pos' x (occurs_iff.2 (.inr ⟨c, hc, hx⟩))
  · intro h pos' x hx
    rcases occurs_iff.1 hx with ⟨rfl, rfl⟩ | ⟨c, hc, hx⟩
    · exact h.1
    · exact h.2 c hc pos' x hx

/-- A node all of whose children have one position. -/
theorem wellFormedAt_of_children {t : Text} {pos : Position} {e : Expr} (pos' : Position)
    (es : List Expr) (hchildren : e.children = es.map (pos', ·)) (hproper : Proper t pos e)
    (hes : ∀ x ∈ es, WellFormedAt t pos' x) : WellFormedAt t pos e := by
  refine wellFormedAt_iff.2 ⟨hproper, ?_⟩
  intro c hc
  rw [hchildren] at hc
  obtain ⟨x, hx, rfl⟩ := List.mem_map.1 hc
  exact hes x hx

/-- A node without children. -/
theorem wellFormedAt_leaf {t : Text} {pos : Position} {e : Expr} (hleaf : e.children = [])
    (hproper : Proper t pos e) : WellFormedAt t pos e :=
  wellFormedAt_of_children .operand [] hleaf hproper (List.forall_mem_nil _)

/-- The empty expression is no operand. -/
theorem ne_empty_of_wellFormedAt {t : Text} {e : Expr} (h : WellFormedAt t .operand e) :
    e ≠ .empty := by
  rintro rfl
  rcases h _ _ .self with ⟨hbody, -⟩ | hsub
  · cases hbody
  · cases hsub

end Expr

-- ============================================================== tokens

/-- What a text says about a token of it. -/
def TokenKind.Sourced (t : Text) : TokenKind Text → Prop
  | .name n => IsWord n
  | .template raw => quotation '`' raw <:+: t
  | _ => True

open TokenKind (Sourced)

/-- Every token of a part of a text is one that the text vouches for. -/
theorem sourced_of_kindsOf {t code : Text} {ks : List (TokenKind Text)} (hcode : code <:+: t)
    (hks : kindsOf code = .ok ks) : ∀ k ∈ ks, Sourced t k := by
  obtain ⟨ts, hts, rfl⟩ := exists_tokenize_of_kindsOf hks
  intro k hk
  obtain ⟨⟨k, p⟩, hmem, rfl⟩ := List.mem_map.1 hk
  obtain ⟨raw, rest, hin, hbegins⟩ := exists_begins_of_tokenize hts hmem
  cases k with
  | name n =>
      obtain ⟨hlongest, rfl, -⟩ := hbegins
      exact hlongest.holds
  | template body =>
      obtain ⟨-, rfl, -⟩ := hbegins
      exact hin.trans hcode
  | _ => trivial

/-- Code has no tokens exactly when it is blank. -/
theorem nil_iff_isBlank {code : Text} {ks : List (TokenKind Text)} (hks : kindsOf code = .ok ks) :
    ks = [] ↔ Text.isBlank code = true := by
  obtain ⟨ts, hts, rfl⟩ := exists_tokenize_of_kindsOf hks
  rw [List.map_eq_nil_iff]
  constructor
  · rintro rfl
    exact Grammar.isBlank_of_tokenize_nil hts
  · intro hblank
    have hnil := Lexeme.tokens_of_blanks hblank [] 0
    rw [List.append_nil, Lexeme.split] at hnil
    exact Except.ok.inj (hts.symm.trans hnil)

namespace Grammar

open KeyHarvest.Expr (WellFormedAt wellFormedAt_leaf wellFormedAt_of_children mem_binarySpellings
  mem_unarySpellings ne_empty_of_wellFormedAt)

variable {t : Text}

/-- A name that the grammar takes is a word. -/
theorem isWord_of_isName {k : TokenKind Text} {n : Text} (h : IsName k n) (hk : Sourced t k) :
    IsWord n := by
  cases h with
  | name n => exact hk
  | keyword word => exact isIdentifier_spelling word

/-- A key without quotes is a word. -/
theorem isWord_of_isMapKey {k : TokenKind Text} {key : MapKey} (h : IsMapKey k key)
    (hbare : key.quoted = false) (hk : Sourced t k) : IsWord key.name := by
  cases h with
  | bare h => exact isWord_of_isName h hk
  | quoted value => cases hbare

/-- A name that stands alone is a property of the context. -/
theorem wellFormedAt_context_property {n : Text} (hn : IsWord n) (pos : Expr.Position) :
    WellFormedAt t pos (.property .context n) := by
  refine wellFormedAt_of_children .receiver [.context] rfl hn (List.forall_mem_singleton.2 ?_)
  exact wellFormedAt_leaf rfl rfl

/-- What a prefix operator makes of a well-formed operand is well-formed. -/
theorem wellFormedAt_of_prefixed {k : TokenKind Text} {make : Expr → Expr}
    (hk : prefixed k = some make) {e : Expr} (he : WellFormedAt t .operand e)
    (pos : Expr.Position) : WellFormedAt t pos (make e) := by
  have hone : ∀ x ∈ [e], WellFormedAt t .operand x := List.forall_mem_singleton.2 he
  unfold prefixed at hk
  split at hk <;> cases hk
  · exact wellFormedAt_of_children .operand [e] rfl trivial hone
  · exact wellFormedAt_of_children .operand [e] rfl (mem_unarySpellings _) hone
  · exact wellFormedAt_of_children .operand [e] rfl (mem_unarySpellings _) hone
  · exact wellFormedAt_of_children .operand [e] rfl trivial hone
  · exact wellFormedAt_of_children .operand [e] rfl (mem_unarySpellings _) hone

/-- An operand of one token is well-formed. -/
theorem wellFormedAt_of_atom {k : TokenKind Text} {e : Expr} (h : atom k = some e)
    (hk : Sourced t k) (pos : Expr.Position) : WellFormedAt t pos e := by
  unfold atom at h
  split at h <;> cases h
  case h_5 => exact wellFormedAt_leaf rfl trivial
  case h_8 => exact wellFormedAt_context_property hk pos
  all_goals exact wellFormedAt_leaf rfl (Literal.isProper _)

/-- A tree that is derived from tokens of the text may stand anywhere. -/
theorem Derives.wellFormedAt {symbol : Symbol} {ts : List (TokenKind Text)} {e : Expr}
    (h : Derives symbol ts e) (hts : ∀ k ∈ ts, Sourced t k) (pos : Expr.Position) :
    WellFormedAt t pos e := by
  -- on the derivation: the levels hand on the tree of the next one, so the position stays general
  induction h generalizing pos with
  | pipe _ ih | cond _ ih | level _ ih | power _ ih | unary _ ih | access _ ih => exact ih hts pos
  | @apply ts input k name args _ hn _ ih iha =>
      have hname : IsWord name := isWord_of_isName hn (hts k (by simp))
      refine wellFormedAt_of_children .operand (input :: args.map Prod.snd) rfl hname ?_
      rw [List.forall_mem_cons, List.forall_mem_map]
      refine ⟨ih (fun k hk => hts k (by simp [hk])) .operand, ?_⟩
      intro a ha
      refine iha a ha (fun k hk => hts k ?_) .operand
      have hin : k ∈ introduced (args.map Prod.fst) :=
        List.mem_flatMap.2 ⟨a.1, List.mem_map_of_mem ha, List.mem_cons_of_mem _ hk⟩
      simp [hin]
  | @choice ts us vs test yes no _ _ _ iht ihy ihn =>
      refine wellFormedAt_of_children .operand [test, yes, no] rfl trivial ?_
      simp only [List.forall_mem_cons]
      refine ⟨?_, ?_, ?_, List.forall_mem_nil _⟩
      · exact iht (fun k hk => hts k (by simp [hk])) .operand
      · exact ihy (fun k hk => hts k (by simp [hk])) .operand
      · exact ihn (fun k hk => hts k (by simp [hk])) .operand
  | @join n op ts us left right _ _ _ ihl ihr =>
      refine wellFormedAt_of_children .operand [left, right] rfl (mem_binarySpellings op) ?_
      simp only [List.forall_mem_cons]
      refine ⟨?_, ?_, List.forall_mem_nil _⟩
      · exact ihl (fun k hk => hts k (by simp [hk])) .operand
      · exact ihr (fun k hk => hts k (by simp [hk])) .operand
  | @raise ts us base exponent _ _ ihb ihe =>
      refine wellFormedAt_of_children .operand [base, exponent] rfl (mem_binarySpellings .pow) ?_
      simp only [List.forall_mem_cons]
      refine ⟨?_, ?_, List.forall_mem_nil _⟩
      · exact ihb (fun k hk => hts k (by simp [hk])) .operand
      · exact ihe (fun k hk => hts k (by simp [hk])) .operand
  | front hk _ ih =>
      exact wellFormedAt_of_prefixed hk (ih (fun k hk => hts k (by simp [hk])) .operand) pos
  | @property ts e k name _ hn ih =>
      have hname : IsWord name := isWord_of_isName hn (hts k (by simp))
      refine wellFormedAt_of_children .receiver [e] rfl hname (List.forall_mem_singleton.2 ?_)
      exact ih (fun k hk => hts k (by simp [hk])) .receiver
  | @safeProperty ts e k name _ hn ih =>
      have hname : IsWord name := isWord_of_isName hn (hts k (by simp))
      refine wellFormedAt_of_children .operand [e] rfl hname (List.forall_mem_singleton.2 ?_)
      exact ih (fun k hk => hts k (by simp [hk])) .operand
  | @index ts us e key _ _ ih ihk | @safeIndex ts us e key _ _ ih ihk =>
      refine wellFormedAt_of_children .operand [e, key] rfl trivial ?_
      simp only [List.forall_mem_cons]
      refine ⟨?_, ?_, List.forall_mem_nil _⟩
      · exact ih (fun k hk => hts k (by simp [hk])) .operand
      · exact ihk (fun k hk => hts k (by simp [hk])) .operand
  | @call ts e args _ _ ih iha | @safeCall ts e args _ _ ih iha =>
      refine wellFormedAt_of_children .operand (e :: args.map Prod.snd) rfl trivial ?_
      rw [List.forall_mem_cons, List.forall_mem_map]
      refine ⟨ih (fun k hk => hts k (by simp [hk])) .operand, ?_⟩
      intro a ha
      refine iha a ha (fun k hk => hts k ?_) .operand
      simp [mem_separated (List.mem_map_of_mem ha) hk]
  | @assertion ts e _ ih =>
      refine wellFormedAt_of_children .operand [e] rfl trivial (List.forall_mem_singleton.2 ?_)
      exact ih (fun k hk => hts k (by simp [hk])) .operand
  | atom hk => exact wellFormedAt_of_atom hk (hts _ List.mem_cons_self) pos
  | group _ ih => exact ih (fun k hk => hts k (by simp [hk])) pos
  | @array items _ ih =>
      refine wellFormedAt_of_children .operand (items.map Prod.snd) rfl trivial ?_
      rw [List.forall_mem_map]
      intro a ha
      refine ih a ha (fun k hk => hts k ?_) .operand
      simp [mem_separated (List.mem_map_of_mem ha) hk]
  | @map entries hk _ hs ih =>
      have hlength : (entries.map MapEntry.value).length = (entries.map MapEntry.key).length := by
        rw [List.length_map, List.length_map]
      refine wellFormedAt_of_children .operand (entries.map MapEntry.value) rfl hlength ?_
      rw [List.forall_mem_map]
      intro m hm
      have htokens : ∀ k ∈ m.tokens, Sourced t k := by
        intro k hk
        refine hts k ?_
        simp [mem_separated (List.mem_map_of_mem hm) hk]
      cases hvalue : m.tokens? with
      | some us =>
          refine ih m hm us hvalue (fun k hk => htokens k ?_) .operand
          rw [MapEntry.tokens, hvalue]
          exact List.mem_cons_of_mem _ (List.mem_cons_of_mem _ hk)
      | none =>
          obtain ⟨hbare, hread⟩ := hs m hm hvalue
          rw [hread]
          refine wellFormedAt_context_property ?_ .operand
          exact isWord_of_isMapKey (hk m hm) hbare (htokens _ List.mem_cons_self)
  -- only here children can be empty: those of blank substitutions, which have no derivation
  | @template raw last fillings hb ht he hd ih =>
      have hraw : quotation '`' raw <:+: t := hts _ List.mem_cons_self
      have htokens : ∀ f ∈ fillings, ∀ k ∈ f.tokens, Sourced t k := by
        intro f hf
        refine sourced_of_kindsOf ?_ (ht f hf)
        have hpart : f.part ∈ (BacktickBody.split 0 raw).parts := by
          rw [hb]
          exact List.mem_map_of_mem hf
        exact (BacktickBody.code_isInfix hpart).trans ((infix_quotation _ raw).trans hraw)
      have hfills : ∀ f ∈ fillings, Denotes f.part.code f.value
          ∧ (f.value = .empty ↔ Text.isBlank f.part.code = true) := by
        intro f hf
        refine ⟨⟨f.tokens, ht f hf, he f hf, hd f hf⟩, ?_⟩
        rw [← nil_iff_isBlank (ht f hf)]
        refine ⟨?_, he f hf⟩
        intro hempty
        by_contra hne
        exact ne_empty_of_wellFormedAt (ih f hf hne (htokens f hf) .operand) hempty
      refine wellFormedAt_of_children .substitution (fillings.map Filling.value) rfl ⟨?_, ?_⟩ ?_
      · simp
      · refine ⟨raw, fillings.map Filling.part, last, hraw, hb, by rw [List.map_map]; rfl, ?_⟩
        rw [List.forall₂_map_left_iff, List.forall₂_map_right_iff, List.forall₂_same]
        exact hfills
      · rw [List.forall_mem_map]
        intro f hf
        by_cases hnil : f.tokens = []
        · rw [he f hf hnil]
          exact wellFormedAt_leaf rfl (.inr rfl)
        · exact ih f hf hnil (htokens f hf) .substitution

end Grammar

-- =============================================================== texts

namespace Expr

/-- The tree of a part of the text may stand anywhere, except that blank
code has the empty expression. -/
theorem wellFormedAt_of_parseAt {t code : Text} {start : Nat} {e : Expr}
    (h : parseAt start code = .ok e) (hcode : code <:+: t) :
    (Text.isBlank code = true → e = .empty)
      ∧ (Text.isBlank code = false → ∀ pos, WellFormedAt t pos e) := by
  obtain ⟨ks, hks, hempty, hderives⟩ := Grammar.denotes_of_parseAt h
  refine ⟨?_, ?_⟩
  · intro hblank
    exact hempty ((nil_iff_isBlank hks).2 hblank)
  · intro hblank
    have hne : ks ≠ [] := by
      rw [Ne, nil_iff_isBlank hks, hblank]
      exact Bool.false_ne_true
    exact (hderives hne).wellFormedAt (sourced_of_kindsOf hcode hks)

/-- The tree of a binding is well-formed, from its derivation. -/
theorem wellFormedAt_of_parseBinding {t : Text} {x : Expr} (h : parseBinding t = .ok x) :
    WellFormedAt t .root x := by
  obtain ⟨e, he, hx⟩ := bind_eq_ok.1 h
  cases hx
  obtain ⟨hempty, hother⟩ := wellFormedAt_of_parseAt he (List.infix_refl t)
  refine wellFormedAt_of_children .body [e] rfl rfl (List.forall_mem_singleton.2 ?_)
  cases hblank : Text.isBlank t with
  | true =>
      rw [hempty hblank]
      exact wellFormedAt_leaf rfl (.inl ⟨rfl, hblank⟩)
  | false => exact hother hblank .body

/-- The tree of a chunk is well-formed in the text that the chunk is from.
-/
theorem wellFormedAt_of_ofChunk {t : Text} {c : Chunk} {e : Expr} (h : ofChunk c = .ok e)
    (hcode : c.code <:+: t) : WellFormedAt t .operand e := by
  unfold ofChunk at h
  split at h
  · cases h
  · next hblank =>
      rw [Bool.not_eq_true] at hblank
      exact (wellFormedAt_of_parseAt h hcode).2 hblank .operand

/-- The tree of a text with interpolations is well-formed. -/
theorem wellFormedAt_of_parseInterpolated {t : Text} {x : Expr}
    (h : parseInterpolated t = .ok (some x)) : WellFormedAt t .root x := by
  unfold parseInterpolated Interpolated.split at h
  by_cases hrest : (Interpolated.cut 0 t).rest.isEmpty = true
  · rw [if_pos hrest] at h
    cases h
  · rw [if_neg hrest] at h
    obtain ⟨items, hitems, h⟩ := bind_eq_ok.1 h
    cases h
    have hall : ∀ e ∈ items, WellFormedAt t .operand e := by
      intro e he
      obtain ⟨c, hc, hparse⟩ := mem_of_mapM_eq_ok hitems he
      exact wellFormedAt_of_ofChunk hparse (Interpolated.code_isInfix hc)
    have hcount : (Interpolated.cut 0 t).strings.length = items.length + 1 := by
      rw [← (forall₂_of_mapM_eq_ok hitems).length_eq]
      simp [Interpolated.strings, Interpolated.chunks]
    have hempty : .empty ∉ items := fun hmem => ne_empty_of_wellFormedAt (hall _ hmem) rfl
    refine wellFormedAt_of_children .body [_] rfl rfl (List.forall_mem_singleton.2 ?_)
    exact wellFormedAt_of_children .operand items rfl ⟨rfl, hcount, hempty⟩ hall

/-- Every node of a tree that is read is proper, at any depth. -/
theorem proper_of_parse {t : Text} {x : Expr}
    (h : parseBinding t = .ok x ∨ parseInterpolated t = .ok (some x)) {pos : Position} {e : Expr}
    (he : Occurs .root x pos e) : Proper t pos e := by
  rcases h with h | h
  · exact wellFormedAt_of_parseBinding h pos e he
  · exact wellFormedAt_of_parseInterpolated h pos e he

/-- The blank substitution of a backtick literal that is the argument of a
pipe, and the literal itself. -/
theorem proper_of_parse_pipe :
    let t : Text := ['p', '|', 'q', ':', '`', 'a', '$', '{', ' ', '}', '`']
    let e : Expr := .pipe (.property .context ['p']) ['q'] [.template [['a'], []] [.empty]]
    parseBinding t = .ok (.sourced e t)
      ∧ Proper t .operand (.template [['a'], []] [.empty]) ∧ Proper t .substitution .empty := by
  intro t e
  have hblank : parseAt (4 + 1 + 3) [' '] = .ok .empty := by
    rw [parseAt_eq]
    cbv
  have hparts : BacktickBody.split 0 ['a', '$', '{', ' ', '}'] = ⟨[⟨['a'], [' '], 3⟩], .ok []⟩ := by
    cbv
  have hbody : readBody (4 + 1) ['a', '$', '{', ' ', '}']
      = .ok (.template [['a'], []] [.empty]) := by
    rw [readBody, hparts, List.mapM_cons, hblank]
    cbv
  have htokens : tokenize 0 t = .ok [⟨.name ['p'], 0⟩, ⟨.operator .bar, 1⟩, ⟨.name ['q'], 2⟩,
      ⟨.mark .colon, 3⟩, ⟨.template ['a', '$', '{', ' ', '}'], 4⟩] := by
    cbv
  have hread : parseBinding t = .ok (.sourced e t) := by
    rw [parseBinding, parseAt_eq, htokens]
    simp only [bind, Except.bind, List.map_cons, List.map_nil, toItem, TokenKind.map, toBacktick,
      hbody]
    cbv
  have hpipe : Occurs .root (.sourced e t) .body e := .child .self List.mem_cons_self
  have hliteral : Occurs .root (.sourced e t) .operand (.template [['a'], []] [.empty]) :=
    hpipe.child (List.mem_cons_of_mem _ List.mem_cons_self)
  have hempty : Occurs .root (.sourced e t) .substitution .empty :=
    hliteral.child List.mem_cons_self
  exact ⟨hread, proper_of_parse (.inl hread) hliteral, proper_of_parse (.inl hread) hempty⟩

end Expr

end KeyHarvest
