/-
The grammar of expressions as a relation. `Derives symbol ts e` says that
the tokens `ts` make up an expression of the symbol, and that `e` is its
tree: grouping leaves no node, the binary levels associate to the left and
`**` to the right. The relation knows nothing of reading: it has one rule
for each production, and no order among them.

    pipe     = cond ("|" name (":" cond)*)*
    cond     = level 7 ("?" pipe ":" pipe)?
    level n  = level n-1 (operator of level n, level n-1)*
    level 0  = unary ("**" level 0)?
    unary    = ("!" | "-" | "+" | "typeof" | "void") unary | access
    access   = primary ("." name | "?." name | ("?.")? "[" pipe "]"
                 | ("?.")? "(" items ")" | "!")*
    primary  = "(" pipe ")" | literal | "[" items "]" | map | backtick | name

A repetition is a rule that extends what it repeats on, so the rule fixes
the side to which its tree grows. Items stand between single commas, none
at the end. An entry of a map is a key with a value after a colon, or a
bare name by itself, which reads the property of that name. Reserved words
are names everywhere but as an expression of their own.

A backtick literal is one token. Its tree holds the chunks of its text,
and for the code of every substitution the tree of the tokens of that
code, or the empty expression where the code has none.
-/
import KeyHarvest.Proofs.Expr.Item
import KeyHarvest.Proofs.Expr.Reading

namespace KeyHarvest.Grammar

-- ======================================================= token classes

/-- The tokens that are names: names and reserved words. -/
inductive IsName {τ : Type} : TokenKind τ → Text → Prop where
  | name (n : Text) : IsName (.name n) n
  | keyword (word : Keyword) : IsName (.keyword word) word.spelling

/-- The tokens that are keys of a map. -/
inductive IsMapKey {τ : Type} : TokenKind τ → MapKey → Prop where
  | bare {k : TokenKind τ} {n : Text} (h : IsName k n) : IsMapKey k ⟨n, false⟩
  | quoted (value : Text) : IsMapKey (.text value) ⟨value, true⟩

/-- Token lists with a comma between neighbours. -/
def separated {τ : Type} : List (List (TokenKind τ)) → List (TokenKind τ) :=
  List.intercalate [.mark .comma]

/-- Token lists with a colon in front of each. -/
def introduced {τ : Type} (tss : List (List (TokenKind τ))) : List (TokenKind τ) :=
  tss.flatMap (.mark .colon :: ·)

/-- An entry of a map: its key as a token and as such, the tokens of its
value if it has one, and the tree of the value. -/
structure MapEntry where
  token : TokenKind Text
  key : MapKey
  tokens? : Option (List (TokenKind Text))
  value : Expr

namespace MapEntry

/-- The tokens of an entry. -/
def tokens (m : MapEntry) : List (TokenKind Text) :=
  m.token :: (m.tokens?.elim [] (.mark .colon :: ·))

end MapEntry

/-- A substitution of a backtick literal with the tokens of its code and
the tree of its value. -/
structure Filling where
  part : Substitution
  tokens : List (TokenKind Text)
  value : Expr

-- ======================================================== derivations

/-- The tokens of an expression of a symbol, and its tree. -/
inductive Derives : Symbol → List (TokenKind Text) → Expr → Prop where
  | pipe {ts : List (TokenKind Text)} {e : Expr} (h : Derives .cond ts e) : Derives .pipe ts e
  | apply {ts : List (TokenKind Text)} {input : Expr} {k : TokenKind Text} {name : Text}
      {args : List (List (TokenKind Text) × Expr)} (hi : Derives .pipe ts input)
      (hn : IsName k name) (ha : ∀ a ∈ args, Derives .cond a.1 a.2) :
      Derives .pipe (ts ++ .operator .bar :: k :: introduced (args.map Prod.fst))
        (.pipe input name (args.map Prod.snd))
  | cond {ts : List (TokenKind Text)} {e : Expr} (h : Derives (.binary BinaryOp.loosest) ts e) :
      Derives .cond ts e
  | choice {ts us vs : List (TokenKind Text)} {test yes no : Expr}
      (ht : Derives (.binary BinaryOp.loosest) ts test) (hy : Derives .pipe us yes)
      (hn : Derives .pipe vs no) :
      Derives .cond (ts ++ .operator .question :: us ++ .mark .colon :: vs)
        (.conditional test yes no)
  | level {n : Nat} {ts : List (TokenKind Text)} {e : Expr} (h : Derives (.binary n) ts e) :
      Derives (.binary (n + 1)) ts e
  | join {n : Nat} {op : BinaryOp} {ts us : List (TokenKind Text)} {left right : Expr}
      (hop : op.level = n + 1) (hl : Derives (.binary (n + 1)) ts left)
      (hr : Derives (.binary n) us right) :
      Derives (.binary (n + 1)) (ts ++ .operator (.binary op) :: us) (.binary op left right)
  | power {ts : List (TokenKind Text)} {e : Expr} (h : Derives .unary ts e) :
      Derives (.binary 0) ts e
  | raise {ts us : List (TokenKind Text)} {base exponent : Expr} (hb : Derives .unary ts base)
      (he : Derives (.binary 0) us exponent) :
      Derives (.binary 0) (ts ++ .operator (.binary .pow) :: us) (.binary .pow base exponent)
  | unary {ts : List (TokenKind Text)} {e : Expr} (h : Derives .access ts e) : Derives .unary ts e
  | front {k : TokenKind Text} {make : Expr → Expr} {ts : List (TokenKind Text)} {e : Expr}
      (hk : prefixed k = some make) (h : Derives .unary ts e) : Derives .unary (k :: ts) (make e)
  | access {ts : List (TokenKind Text)} {e : Expr} (h : Derives .primary ts e) :
      Derives .access ts e
  | property {ts : List (TokenKind Text)} {e : Expr} {k : TokenKind Text} {name : Text}
      (h : Derives .access ts e) (hn : IsName k name) :
      Derives .access (ts ++ [.mark .dot, k]) (.property e name)
  | safeProperty {ts : List (TokenKind Text)} {e : Expr} {k : TokenKind Text} {name : Text}
      (h : Derives .access ts e) (hn : IsName k name) :
      Derives .access (ts ++ [.operator .optional, k]) (.safeProperty e name)
  | index {ts us : List (TokenKind Text)} {e key : Expr} (h : Derives .access ts e)
      (hk : Derives .pipe us key) :
      Derives .access (ts ++ .mark .openBracket :: us ++ [.mark .closeBracket]) (.index e key)
  | safeIndex {ts us : List (TokenKind Text)} {e key : Expr} (h : Derives .access ts e)
      (hk : Derives .pipe us key) :
      Derives .access
        (ts ++ .operator .optional :: .mark .openBracket :: us ++ [.mark .closeBracket])
        (.safeIndex e key)
  | call {ts : List (TokenKind Text)} {e : Expr} {args : List (List (TokenKind Text) × Expr)}
      (h : Derives .access ts e) (ha : ∀ a ∈ args, Derives .pipe a.1 a.2) :
      Derives .access
        (ts ++ .mark .openParen :: separated (args.map Prod.fst) ++ [.mark .closeParen])
        (.call e (args.map Prod.snd))
  | safeCall {ts : List (TokenKind Text)} {e : Expr} {args : List (List (TokenKind Text) × Expr)}
      (h : Derives .access ts e) (ha : ∀ a ∈ args, Derives .pipe a.1 a.2) :
      Derives .access
        (ts ++ .operator .optional :: .mark .openParen :: separated (args.map Prod.fst)
          ++ [.mark .closeParen])
        (.safeCall e (args.map Prod.snd))
  | assertion {ts : List (TokenKind Text)} {e : Expr} (h : Derives .access ts e) :
      Derives .access (ts ++ [.operator .bang]) (.assertion e)
  | atom {k : TokenKind Text} {e : Expr} (hk : atom k = some e) : Derives .primary [k] e
  | group {ts : List (TokenKind Text)} {e : Expr} (h : Derives .pipe ts e) :
      Derives .primary (.mark .openParen :: ts ++ [.mark .closeParen]) e
  | array {items : List (List (TokenKind Text) × Expr)}
      (h : ∀ a ∈ items, Derives .pipe a.1 a.2) :
      Derives .primary
        (.mark .openBracket :: separated (items.map Prod.fst) ++ [.mark .closeBracket])
        (.array (items.map Prod.snd))
  | map {entries : List MapEntry} (hk : ∀ m ∈ entries, IsMapKey m.token m.key)
      (hv : ∀ m ∈ entries, ∀ ts, m.tokens? = some ts → Derives .pipe ts m.value)
      (hs : ∀ m ∈ entries, m.tokens? = none →
        m.key.quoted = false ∧ m.value = .property .context m.key.name) :
      Derives .primary
        (.mark .openBrace :: separated (entries.map MapEntry.tokens) ++ [.mark .closeBrace])
        (.map (entries.map MapEntry.key) (entries.map MapEntry.value))
  | template {raw last : Text} {fillings : List Filling}
      (hb : BacktickBody.split 0 raw = ⟨fillings.map Filling.part, .ok last⟩)
      (ht : ∀ f ∈ fillings, kindsOf f.part.code = .ok f.tokens)
      (he : ∀ f ∈ fillings, f.tokens = [] → f.value = .empty)
      (hd : ∀ f ∈ fillings, f.tokens ≠ [] → Derives .pipe f.tokens f.value) :
      Derives .primary [.template raw]
        (.template (fillings.map (fun f => Escape.decode f.part.before) ++ [Escape.decode last])
          (fillings.map Filling.value))

end KeyHarvest.Grammar
