/-
Value positions. A value comes up through some edges of a tree and not
through others: the items of arrays and interpolations, the values of
maps, the input of a pipe, the branches of a conditional, the operands of
an operator and the tree below a root let it pass, and no other edge does
(`passes`). The literals of an expression are the literal nodes that stand
at the end of such edges only, each once and from left to right
(`literals_at_value_positions`).

# Two expressions

What lies behind any other edge has no say. `Resembles` relates trees that
differ in nothing but conditions, pipe names and arguments, map keys,
operators, strings between items, sources, and nodes that let nothing
pass; such trees have the same literals. And nothing is lost: what the
choices of an expression can come to (`Selects`) is in the list if it is a
literal.
-/
import KeyHarvest.Expr.Literals
import KeyHarvest.Proofs.Expr.WellFormed

namespace KeyHarvest.Expr

-- ============================================================= edges

/-- Whether a value passes from the child with a number to its parent. The
test of a conditional comes before its branches, and the arguments of a
pipe come behind its input. -/
def passes : Expr → Nat → Bool
  | .array _, _ | .map _ _, _ | .interpolation _ _, _ | .binary _ _ _, _ | .sourced _ _, _ => true
  | .pipe _ _ _, i => i = 0
  | .conditional _ _ _, i => i ≠ 0
  | _, _ => false

/-- The numbers of the children on the way down to a node. -/
abbrev Route := List Nat

/-- A node at the end of a route through edges that let values pass. -/
inductive ValueAt : Expr → Route → Expr → Prop where
  | here (e : Expr) : ValueAt e [] e
  | down {e c x : Expr} {pos : Position} {i : Nat} {r : Route} (hc : e.children[i]? = some (pos, c))
      (hi : e.passes i = true) (h : ValueAt c r x) : ValueAt e (i :: r) x

/-- The children whose values pass, with their numbers. -/
def valueParts (e : Expr) : List (Nat × Expr) :=
  (e.children.zipIdx.filter fun c => e.passes c.2).map fun c => (c.2, c.1.2)

variable {e : Expr}

/-- A child whose value passes, said by its number. -/
theorem mem_valueParts {i : Nat} {c : Expr} :
    (i, c) ∈ e.valueParts ↔ ∃ pos, e.children[i]? = some (pos, c) ∧ e.passes i = true := by
  unfold valueParts
  constructor
  · intro h
    obtain ⟨⟨⟨pos, c'⟩, i'⟩, hmem, heq⟩ := List.mem_map.1 h
    cases heq
    obtain ⟨hchild, hpass⟩ := List.mem_filter.1 hmem
    exact ⟨pos, List.mem_zipIdx_iff_getElem?.1 hchild, hpass⟩
  · intro h
    obtain ⟨pos, hchild, hpass⟩ := h
    apply List.mem_map.2
    exact ⟨((pos, c), i), List.mem_filter.2 ⟨List.mem_zipIdx_iff_getElem?.2 hchild, hpass⟩, rfl⟩

/-- The children come in the order of their numbers. -/
theorem pairwise_valueParts (e : Expr) : (e.valueParts.map Prod.fst).Pairwise (· < ·) := by
  have hnumbers : (e.valueParts.map Prod.fst).Sublist (e.children.zipIdx.map Prod.snd) := by
    unfold valueParts
    rw [List.map_map]
    exact List.filter_sublist.map Prod.snd
  apply List.Pairwise.sublist hnumbers
  rw [List.zipIdx_map_snd]
  exact List.pairwise_lt_range'

-- ========================================================== literals

/-- The literals of a list come expression by expression. -/
theorem literalsOf_eq (es : List Expr) : literalsOf es = es.flatMap literals := by
  induction es with
  | nil => rfl
  | cons e es ih => rw [literalsOf, ih, List.flatMap_cons]

/-- Where all children pass, the literals are those of the children. -/
theorem flatMap_valueParts_of_passes (h : ∀ i, e.passes i = true) :
    e.valueParts.flatMap (fun c => c.2.literals) = e.children.flatMap fun c => c.2.literals := by
  have hnumbered : e.children.zipIdx.flatMap (fun c => c.1.2.literals)
      = (e.children.zipIdx.map Prod.fst).flatMap fun c => c.2.literals := by
    rw [List.flatMap_map]
  unfold valueParts
  rw [List.filter_eq_self.2 fun c _ => h c.2, List.flatMap_map, hnumbered, List.zipIdx_map_fst]

/-- Without an edge that lets values pass there are no such children. -/
theorem valueParts_of_blocked (h : ∀ i, e.passes i = false) : e.valueParts = [] := by
  unfold valueParts
  rw [List.filter_eq_nil_iff.2 fun c _ => by rw [h c.2]; exact Bool.false_ne_true, List.map_nil]

/-- Of the children of a pipe only the input passes its value. -/
theorem valueParts_pipe (input : Expr) (name : Text) (args : List Expr) :
    (Expr.pipe input name args).valueParts = [(0, input)] := by
  have hargs : ((args.map ((Position.operand, ·))).zipIdx 1).filter
      (fun c => (Expr.pipe input name args).passes c.2) = [] := by
    rw [List.filter_eq_nil_iff]
    intro c hc
    have hbehind : 1 ≤ c.2 := List.le_snd_of_mem_zipIdx hc
    simp only [passes, decide_eq_true_eq]
    omega
  unfold valueParts
  rw [children, List.map_cons, List.zipIdx_cons, List.filter_cons_of_pos (by rfl), hargs]
  rfl

/-- The literals of children are those of the expressions. -/
theorem flatMap_map_operands (pos : Position) (es : List Expr) :
    (es.map ((pos, ·))).flatMap (fun c => c.2.literals) = literalsOf es := by
  rw [List.flatMap_map, literalsOf_eq]

/-- The literals of a node that is none are those of its children whose
values pass. -/
theorem literals_eq_flatMap (h : ∀ l, e ≠ .literal l) :
    e.literals = e.valueParts.flatMap fun c => c.2.literals := by
  cases e with
  | literal l => exact absurd rfl (h l)
  | array items =>
      rw [flatMap_valueParts_of_passes fun _ => rfl, children, flatMap_map_operands, literals]
  | map keys values =>
      rw [flatMap_valueParts_of_passes fun _ => rfl, children, flatMap_map_operands, literals]
  | interpolation strings items =>
      rw [flatMap_valueParts_of_passes fun _ => rfl, children, flatMap_map_operands, literals]
  | binary op left right =>
      rw [flatMap_valueParts_of_passes fun _ => rfl, children, flatMap_map_operands, literals,
        literalsOf, literalsOf, literalsOf, List.append_nil]
  | sourced e source =>
      rw [flatMap_valueParts_of_passes fun _ => rfl, children, literals, List.flatMap_singleton]
  | pipe input name args => rw [valueParts_pipe, literals, List.flatMap_singleton]
  | conditional test yes no =>
      have hparts : (Expr.conditional test yes no).valueParts = [(1, yes), (2, no)] := rfl
      rw [hparts, literals, List.flatMap_cons, List.flatMap_singleton]
  | _ =>
      rw [valueParts_of_blocked fun _ => rfl]
      rfl

-- ============================================================ listing

/-- A list of the literals at value positions of a tree with their routes:
all of them, each once, and from left to right. -/
structure Lists (e : Expr) (xs : List (Route × Literal)) : Prop where
  literals : xs.map Prod.snd = e.literals
  ordered : (xs.map Prod.fst).Pairwise (· < ·)
  complete : ∀ r l, (r, l) ∈ xs ↔ ValueAt e r (.literal l)

/-- A literal lists itself, at the end of the empty route. -/
theorem lists_literal (l : Literal) : Lists (.literal l) [([], l)] where
  literals := rfl
  ordered := List.pairwise_singleton _ _
  complete := by
    intro r l'
    rw [List.mem_singleton]
    constructor
    · intro h
      cases h
      exact .here _
    · intro h
      cases h with
      | here => rfl
      | down hc => cases hc

/-- The lists of the parts of a node, put one behind the other. -/
theorem exists_listed_parts {ps : List (Nat × Expr)}
    (hps : (ps.map Prod.fst).Pairwise (· < ·)) (h : ∀ p ∈ ps, ∃ xs, Lists p.2 xs) :
    ∃ xs : List (Route × Literal), xs.map Prod.snd = ps.flatMap (fun p => p.2.literals)
      ∧ (xs.map Prod.fst).Pairwise (· < ·)
      ∧ ∀ r l, (r, l) ∈ xs ↔ ∃ p ∈ ps, ∃ r', r = p.1 :: r' ∧ ValueAt p.2 r' (.literal l) := by
  induction ps with
  | nil => exact ⟨[], rfl, .nil, by simp⟩
  | cons p ps ih =>
      rw [List.map_cons, List.pairwise_cons] at hps
      obtain ⟨xs, hxs⟩ := h p List.mem_cons_self
      obtain ⟨ys, hliterals, hordered, hcomplete⟩ :=
        ih hps.2 fun q hq => h q (List.mem_cons_of_mem p hq)
      have hroutes : (xs.map fun x => (p.1 :: x.1, x.2)).map Prod.fst
          = (xs.map Prod.fst).map (p.1 :: ·) := by
        rw [List.map_map, List.map_map]
        rfl
      refine ⟨xs.map (fun x => (p.1 :: x.1, x.2)) ++ ys, ?_, ?_, ?_⟩
      · rw [List.map_append, hliterals, List.flatMap_cons, ← hxs.literals, List.map_map]
        rfl
      · rw [List.map_append, List.pairwise_append, hroutes, List.pairwise_map]
        refine ⟨hxs.ordered.imp List.cons_lt_cons_self.2, hordered, ?_⟩
        intro r hr r' hr'
        obtain ⟨a, -, rfl⟩ := List.mem_map.1 hr
        obtain ⟨⟨b, l⟩, hy, rfl⟩ := List.mem_map.1 hr'
        obtain ⟨q, hq, r'', rfl, -⟩ := (hcomplete b l).1 hy
        exact List.cons_lt_cons_iff.2 (.inl (hps.1 q.1 (List.mem_map_of_mem hq)))
      · intro r l
        rw [List.mem_append, hcomplete]
        constructor
        · intro hmem
          rcases hmem with hmem | ⟨q, hq, hvalue⟩
          · obtain ⟨⟨r', l'⟩, hx, heq⟩ := List.mem_map.1 hmem
            cases heq
            exact ⟨p, List.mem_cons_self, r', rfl, (hxs.complete r' l').1 hx⟩
          · exact ⟨q, List.mem_cons_of_mem p hq, hvalue⟩
        · intro hvalue
          obtain ⟨q, hq, r', rfl, hvalue⟩ := hvalue
          rcases List.mem_cons.1 hq with rfl | hq
          · exact .inl (List.mem_map.2 ⟨(r', l), (hxs.complete r' l).2 hvalue, rfl⟩)
          · exact .inr ⟨q, hq, r', rfl, hvalue⟩

/-- A literal is reached through a child whose value passes. -/
theorem valueAt_iff (h : ∀ l, e ≠ .literal l) {r : Route} {l : Literal} :
    ValueAt e r (.literal l)
      ↔ ∃ p ∈ e.valueParts, ∃ r', r = p.1 :: r' ∧ ValueAt p.2 r' (.literal l) := by
  constructor
  · intro hvalue
    cases hvalue with
    | here => exact absurd rfl (h l)
    | @down _ c _ pos i r hc hi hvalue =>
        exact ⟨(i, c), mem_valueParts.2 ⟨pos, hc, hi⟩, r, rfl, hvalue⟩
  · intro hvalue
    obtain ⟨⟨i, c⟩, hp, r', rfl, hvalue⟩ := hvalue
    obtain ⟨pos, hc, hi⟩ := mem_valueParts.1 hp
    exact .down hc hi hvalue

/-- A child is smaller, by which the induction goes down. -/
theorem sizeOf_lt_of_mem_children {c : Position × Expr} (h : c ∈ e.children) :
    sizeOf c.2 < sizeOf e := by
  have hlist : ∀ {es : List Expr} {pos : Position}, c ∈ es.map ((pos, ·)) →
      sizeOf c.2 < sizeOf es := by
    intro es pos hc
    obtain ⟨x, hx, rfl⟩ := List.mem_map.1 hc
    exact List.sizeOf_lt_of_mem hx
  cases e with
  | empty | context | this | literal => cases h
  | unary | not | typeof | assertion | property | safeProperty | sourced =>
      cases List.mem_singleton.1 h
      simp only [unary.sizeOf_spec, not.sizeOf_spec, typeof.sizeOf_spec, assertion.sizeOf_spec,
        property.sizeOf_spec, safeProperty.sizeOf_spec, sourced.sizeOf_spec]
      omega
  | conditional | binary | index | safeIndex =>
      obtain ⟨x, hx, rfl⟩ := List.mem_map.1 h
      simp only [List.mem_cons, List.not_mem_nil, or_false] at hx
      simp only [conditional.sizeOf_spec, binary.sizeOf_spec, index.sizeOf_spec,
        safeIndex.sizeOf_spec]
      grind
  | array | map | interpolation | pipe | call | safeCall | template =>
      have hsize := hlist h
      simp only [array.sizeOf_spec, map.sizeOf_spec, interpolation.sizeOf_spec, pipe.sizeOf_spec,
        call.sizeOf_spec, safeCall.sizeOf_spec, template.sizeOf_spec, List.cons.sizeOf_spec]
        at hsize ⊢
      omega

/-- What holds of a node when it holds of its children holds of all. -/
theorem forall_of_children {P : Expr → Prop} (h : ∀ e : Expr, (∀ c ∈ e.children, P c.2) → P e)
    (e : Expr) : P e :=
  h e fun c _ => forall_of_children h c.2
termination_by sizeOf e
decreasing_by
  apply sizeOf_lt_of_mem_children
  assumption

/-- Every tree has a list of its literals with their routes, by induction.
-/
theorem exists_lists (e : Expr) : ∃ xs, Lists e xs := by
  refine forall_of_children (P := fun e => ∃ xs, Lists e xs) ?_ e
  intro e ih
  by_cases hliteral : ∃ l, e = .literal l
  · obtain ⟨l, rfl⟩ := hliteral
    exact ⟨_, lists_literal l⟩
  · have hnode : ∀ l, e ≠ .literal l := fun l hl => hliteral ⟨l, hl⟩
    have hparts : ∀ p ∈ e.valueParts, ∃ xs, Lists p.2 xs := by
      intro p hp
      obtain ⟨pos, hc, -⟩ := mem_valueParts.1 hp
      exact ih (pos, p.2) (List.mem_of_getElem? hc)
    obtain ⟨xs, hliterals, hordered, hcomplete⟩ :=
      exists_listed_parts (pairwise_valueParts e) hparts
    refine ⟨xs, ?_, hordered, ?_⟩
    · rw [hliterals, literals_eq_flatMap hnode]
    · intro r l
      rw [hcomplete, valueAt_iff hnode]

-- ============================================================ choices

/-- What an expression can come to by its choices alone: a conditional by
one of its branches, and `||`, `&&` and `??` by one of their operands. -/
inductive Selects : Expr → Expr → Prop where
  | self (e : Expr) : Selects e e
  | yes {test yes no x : Expr} (h : Selects yes x) : Selects (.conditional test yes no) x
  | no {test yes no x : Expr} (h : Selects no x) : Selects (.conditional test yes no) x
  | left {op : BinaryOp} {left right x : Expr} (hop : op ∈ [.or, .and, .coalesce])
      (h : Selects left x) : Selects (.binary op left right) x
  | right {op : BinaryOp} {left right x : Expr} (hop : op ∈ [.or, .and, .coalesce])
      (h : Selects right x) : Selects (.binary op left right) x
  | sourced {e x : Expr} {source : Text} (h : Selects e x) : Selects (.sourced e source) x

/-- What is selected passes on its literals. -/
theorem literals_subset_of_selects {x : Expr} (h : Selects e x) : x.literals ⊆ e.literals := by
  induction h with
  | self e => exact List.Subset.refl _
  | yes _ ih =>
      rw [literals]
      exact List.Subset.trans ih (List.subset_append_left _ _)
  | no _ ih =>
      rw [literals]
      exact List.Subset.trans ih (List.subset_append_right _ _)
  | left _ _ ih =>
      rw [literals]
      exact List.Subset.trans ih (List.subset_append_left _ _)
  | right _ _ ih =>
      rw [literals]
      exact List.Subset.trans ih (List.subset_append_right _ _)
  | sourced _ ih =>
      rw [literals]
      exact ih

-- ======================================================== resemblance

/-- A node that lets no value pass and is no literal. -/
def IsDeadEnd (e : Expr) : Prop := (∀ l, e ≠ .literal l) ∧ ∀ i, e.passes i = false

mutual

/-- Two trees that differ in nothing but what no value passes through. -/
inductive Resembles : Expr → Expr → Prop where
  | literal (l : Literal) : Resembles (.literal l) (.literal l)
  | deadEnd {e e' : Expr} (h : e.IsDeadEnd) (h' : e'.IsDeadEnd) : Resembles e e'
  | array {items items' : List Expr} (h : AllResemble items items') :
      Resembles (.array items) (.array items')
  | map {keys keys' : List MapKey} {values values' : List Expr} (h : AllResemble values values') :
      Resembles (.map keys values) (.map keys' values')
  | interpolation {strings strings' : List Text} {items items' : List Expr}
      (h : AllResemble items items') :
      Resembles (.interpolation strings items) (.interpolation strings' items')
  | pipe {input input' : Expr} {name name' : Text} {args args' : List Expr}
      (h : Resembles input input') : Resembles (.pipe input name args) (.pipe input' name' args')
  | conditional {test test' yes yes' no no' : Expr} (hyes : Resembles yes yes')
      (hno : Resembles no no') : Resembles (.conditional test yes no) (.conditional test' yes' no')
  | binary {op op' : BinaryOp} {left left' right right' : Expr} (hleft : Resembles left left')
      (hright : Resembles right right') :
      Resembles (.binary op left right) (.binary op' left' right')
  | sourced {e e' : Expr} {source source' : Text} (h : Resembles e e') :
      Resembles (.sourced e source) (.sourced e' source')

/-- Trees that resemble one another one by one. -/
inductive AllResemble : List Expr → List Expr → Prop where
  | nil : AllResemble [] []
  | cons {e e' : Expr} {es es' : List Expr} (h : Resembles e e') (hs : AllResemble es es') :
      AllResemble (e :: es) (e' :: es')

end

/-- A node that lets no value pass has no literals. -/
theorem literals_of_deadEnd (h : e.IsDeadEnd) : e.literals = [] := by
  rw [literals_eq_flatMap h.1, valueParts_of_blocked h.2, List.flatMap_nil]

mutual

/-- Trees that resemble one another have the same literals. -/
theorem literals_of_resembles : ∀ {e e' : Expr}, Resembles e e' → e.literals = e'.literals
  | _, _, .literal _ => rfl
  | _, _, .deadEnd h h' => by rw [literals_of_deadEnd h, literals_of_deadEnd h']
  | _, _, .array h => by rw [literals, literals, literalsOf_of_allResemble h]
  | _, _, .map h => by rw [literals, literals, literalsOf_of_allResemble h]
  | _, _, .interpolation h => by rw [literals, literals, literalsOf_of_allResemble h]
  | _, _, .pipe h => by rw [literals, literals, literals_of_resembles h]
  | _, _, .conditional hyes hno => by
      rw [literals, literals, literals_of_resembles hyes, literals_of_resembles hno]
  | _, _, .binary hleft hright => by
      rw [literals, literals, literals_of_resembles hleft, literals_of_resembles hright]
  | _, _, .sourced h => by rw [literals, literals, literals_of_resembles h]

/-- Trees that resemble one another have the same literals, one by one. -/
theorem literalsOf_of_allResemble : ∀ {es es' : List Expr}, AllResemble es es' →
    literalsOf es = literalsOf es'
  | _, _, .nil => rfl
  | _, _, .cons h hs => by
      rw [literalsOf, literalsOf, literals_of_resembles h, literalsOf_of_allResemble hs]

end

-- =========================================================== main result

/-- The literals of an expression are the literal nodes at its value
positions, each once and from left to right. A tree that resembles it has
the same ones, and a literal that its choices can come to is among
them. -/
theorem literals_at_value_positions (e : Expr) :
    (∃ xs : List (Route × Literal), xs.map Prod.snd = e.literals
        ∧ (xs.map Prod.fst).Pairwise (· < ·)
        ∧ ∀ r l, (r, l) ∈ xs ↔ ValueAt e r (.literal l))
    ∧ (∀ e', Resembles e e' → e'.literals = e.literals)
    ∧ ∀ l, Selects e (.literal l) → l ∈ e.literals := by
  refine ⟨?_, ?_, ?_⟩
  · obtain ⟨xs, hxs⟩ := exists_lists e
    exact ⟨xs, hxs.literals, hxs.ordered, hxs.complete⟩
  · intro e' h
    exact (literals_of_resembles h).symm
  · intro l h
    exact literals_subset_of_selects h List.mem_cons_self

/-- Two conditionals with other tests, operators and pipes: the choice of
one, and the literals of both. -/
theorem literals_at_value_positions_choice :
    let a : Expr := .literal (.text ['a'])
    let b : Expr := .literal (.text ['b'])
    let e : Expr := .sourced (.conditional b (.binary .or a b) (.pipe b ['p'] [a])) []
    let e' : Expr := .sourced (.conditional (.not a) (.binary .add a b) (.pipe b ['q'] [])) ['c']
    Resembles e e' ∧ Selects e a ∧ e'.literals = e.literals ∧ .text ['a'] ∈ e.literals
      ∧ e.literals = [.text ['a'], .text ['b'], .text ['b']] := by
  intro a b e e'
  have hresembles : Resembles e e' :=
    .sourced (.conditional (.binary (.literal _) (.literal _)) (.pipe (.literal _)))
  have hselects : Selects e a := .sourced (.yes (.left (by decide) (.self a)))
  obtain ⟨-, hsame, hselected⟩ := literals_at_value_positions e
  exact ⟨hresembles, hselects, hsame e' hresembles, hselected _ hselects, rfl⟩

end KeyHarvest.Expr
