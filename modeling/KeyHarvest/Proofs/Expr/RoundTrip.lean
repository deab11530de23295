/-
Reading back what was printed. `Restores e` says that the tokens of `e`
stand for it, whatever follows (see Follow.lean). It is proved by
induction on the expression. What is restored is restored in every slot,
with parentheses or without (`Restores.inSlot`, `Restores.inBranch`), and
from the parts in their slots follows the whole, by one lemma for each
kind of expression.

The tokens of a print are cut out of its text again (Lexing.lean), so a
print is read as the expression that was printed (`parseBinding_print`).
-/
import KeyHarvest.Proofs.Expr.Follow
import KeyHarvest.Proofs.Expr.Lexing
import Mathlib.Data.List.Permutation
import Mathlib.Data.Set.NAry

namespace KeyHarvest.Grammar

variable {stop : Nat} {ks rs : List (TokenKind Text)}

-- ============================================================== slots

/-- The tokens of an expression by themselves stand for it. -/
structure Restores (stop : Nat) (e : Expr) : Prop where
  yields : e.symbol ≠ .cond → Yields stop e.symbol e e.tokens
  ends : e.symbol = .cond → Ends stop e e.tokens

/-- A slot encloses what is too loose for it. -/
theorem Slot.encloses_iff {slot : Slot} {e : Expr} :
    slot.encloses e = true
      ↔ slot.symbol.rank < e.symbol.rank ∨ (slot = .branch ∧ e.symbol = .pipe)
        ∨ ((slot = .input ∨ slot = .argument) ∧ e.symbol = .cond) := by
  simp [Slot.encloses, or_assoc]

/-- No operator is looser than the loosest. -/
theorem level_le_loosest (op : BinaryOp) : op.level ≤ BinaryOp.loosest := by
  cases op <;> decide

/-- The symbol of a tree is a proper one. -/
theorem proper_symbol (e : Expr) : e.symbol.Proper := by
  intro n hn
  unfold Expr.symbol at hn
  split at hn <;> cases hn
  exact level_le_loosest _

/-- Nothing is looser than a pipe. -/
theorem Symbol.Proper.rank_le {s : Symbol} (h : s.Proper) : s.rank ≤ Symbol.pipe.rank := by
  cases s with
  | binary n =>
      have hn := h n rfl
      simp only [rank]
      omega
  | _ => decide

/-- What stands for a choice at its end is read to there with pipes. -/
theorem Ends.parses {e : Expr} (h : Ends stop e ks) (hr : Stops .pipe rs) :
    Parses (fun ts => Reads (pipe stop ts)) (ks ++ rs) e rs := by
  have htail : Parses (fun ts => Trails (pipeTail stop e ts)) rs e rs := pipeTail_of_stops hr
  refine Parses.bind ?_ (h rs hr) htail
  intro ts r s hc ht
  exact pipe_iff.2 ⟨e, r, hc, ht⟩

/-- What stands for a choice anywhere does so at the end. -/
theorem Yields.ends {e : Expr} (h : Yields stop .cond e ks) : Ends stop e ks := by
  intro rs hr
  exact h.parses nofun (hr.mono (by decide))

/-- An expression is read to the token that closes it. -/
theorem Restores.closed {e : Expr} (h : Restores stop e) (hr : Stops .pipe rs) (hc : NoColon rs) :
    Parses (fun ts => Reads (pipe stop ts)) (e.tokens ++ rs) e rs := by
  by_cases hcond : e.symbol = .cond
  · exact (h.ends hcond).parses hr
  · have hpipe := (h.yields hcond).loosen (t := .pipe) (proper_symbol e) nofun
      (proper_symbol e).rank_le
    exact hpipe rs e rs (follows_of_stops hr fun _ => hc)

/-- An expression is read to a mark at which nothing goes on. -/
theorem Restores.upTo {e : Expr} (h : Restores stop e) (m : Mark)
    (hm : joins (.mark m : TokenKind Text) = none ∧ m ≠ .colon) :
    Parses (fun ts => Reads (pipe stop ts)) (e.tokens ++ .mark m :: rs) e (.mark m :: rs) := by
  refine h.closed (stops_of_joins_none hm.1) (noColon_cons ?_)
  intro hcolon
  injection hcolon with hcolon
  exact hm.2 hcolon

/-- A tree in parentheses is read as a primary. -/
theorem Restores.group {e : Expr} (h : Restores stop e) :
    Yields stop .primary e (.mark .openParen :: e.tokens ++ [.mark .closeParen]) := by
  intro rs v ss hf ts hts
  obtain ⟨rfl, rfl⟩ := hf
  rw [List.cons_append, List.cons_append, List.append_assoc, List.singleton_append] at hts
  obtain ⟨p, s, rfl, hs⟩ := plain_eq_mark hts
  obtain ⟨r, hr, hread⟩ := h.upTo .closeParen (by decide) s hs
  obtain ⟨q, u, rfl, hu⟩ := plain_eq_mark hr
  exact ⟨u, hu, primary_iff.2 ⟨_, p, s, rfl, .inr (.inr (.inl ⟨q, rfl, hread⟩))⟩⟩

/-- An expression in a slot other than a branch stands for itself there. -/
theorem Restores.inSlot {e : Expr} (h : Restores stop e) (slot : Slot) (hb : slot ≠ .branch)
    (hp : slot.symbol.Proper) (ho : ∀ s, slot = .operand s → s.rank < Symbol.cond.rank) :
    Yields stop slot.symbol e (slot.enclose e e.tokens) := by
  unfold Slot.enclose
  by_cases henc : slot.encloses e = true
  · rw [if_pos henc]
    exact h.group.loosen nofun hp (Nat.zero_le _)
  · rw [if_neg henc]
    rw [Slot.encloses_iff, not_or, not_or, Nat.not_lt] at henc
    obtain ⟨hle, -, hchoice⟩ := henc
    -- a choice is looser than every operand, and enclosed around pipes
    have hcond : e.symbol ≠ .cond := by
      intro hcond
      rw [hcond] at hle
      cases slot with
      | operand s => exact absurd (ho s rfl) (Nat.not_lt.2 hle)
      | branch => exact hb rfl
      | input => exact hchoice ⟨.inl rfl, hcond⟩
      | argument => exact hchoice ⟨.inr rfl, hcond⟩
    exact (h.yields hcond).loosen (proper_symbol e) hp hle

/-- An expression in a branch stands for itself up to its end. -/
theorem Restores.inBranch {e : Expr} (h : Restores stop e) :
    Ends stop e (Slot.branch.enclose e e.tokens) := by
  unfold Slot.enclose
  by_cases henc : Slot.branch.encloses e = true
  · rw [if_pos henc]
    exact (h.group.loosen (t := .cond) nofun nofun (Nat.zero_le _)).ends
  · rw [if_neg henc]
    rw [Slot.encloses_iff, not_or, not_or] at henc
    obtain ⟨-, hpipe, -⟩ := henc
    by_cases hcond : e.symbol = .cond
    · exact h.ends hcond
    · refine ((h.yields hcond).loosen (t := .cond) (proper_symbol e) nofun ?_).ends
      have hproper := proper_symbol e
      cases hs : e.symbol with
      | pipe => exact absurd ⟨rfl, hs⟩ hpipe
      | binary n =>
          have hn := hproper n hs
          simp only [Symbol.rank]
          omega
      | _ => decide

-- ========================================================== sequences

/-- A unary that begins with a mark begins with an opening one. -/
theorem opens_of_unary {m : Mark} {p : Nat} {ts r : List Item} {e : Expr}
    (h : Reads (unary stop (⟨.mark m, p⟩ :: ts)) e r) :
    m = .openParen ∨ m = .openBracket ∨ m = .openBrace := by
  rcases unary_iff.1 h with ⟨k, q, s, make, x, heq, hk, -⟩ | ⟨-, ha⟩
  · cases heq
    cases hk
  · obtain ⟨receiver, s, hp, -⟩ := access_iff.1 ha
    obtain ⟨k, q, s', heq, hcase⟩ := primary_iff.1 hp
    cases heq
    rcases hcase with ⟨hk, -⟩ | ⟨b, hk, -⟩ | ⟨q, hk, -⟩ | ⟨es, hk, -⟩ | ⟨keys, values, hk, -⟩
    · cases hk
    · cases hk
    · cases hk
      exact .inl rfl
    · cases hk
      exact .inr (.inl rfl)
    · cases hk
      exact .inr (.inr rfl)

/-- A level that begins with a mark begins with an opening one. -/
theorem opens_of_binary {n : Nat} {m : Mark} {p : Nat} {ts r : List Item} {e : Expr}
    (h : Reads (binary stop n (⟨.mark m, p⟩ :: ts)) e r) :
    m = .openParen ∨ m = .openBracket ∨ m = .openBrace := by
  induction n generalizing e r with
  | zero =>
      rw [binary_zero] at h
      rcases power_iff.1 h with ⟨hu, -⟩ | ⟨base, q, s, exponent, hu, -⟩
      · exact opens_of_unary hu
      · exact opens_of_unary hu
  | succ n ih =>
      obtain ⟨left, s, hl, -⟩ := binary_succ_iff.1 h
      exact ih hl

/-- Of the marks only opening brackets begin an expression. -/
theorem opens_of_pipe {m : Mark} {p : Nat} {ts r : List Item} {e : Expr}
    (h : Reads (pipe stop (⟨.mark m, p⟩ :: ts)) e r) :
    m = .openParen ∨ m = .openBracket ∨ m = .openBrace := by
  obtain ⟨input, s, hc, -⟩ := pipe_iff.1 h
  rcases cond_iff.1 hc with ⟨hb, -⟩ | ⟨test, q, u, yes, q', v, no, hb, -⟩
  · exact opens_of_binary hb
  · exact opens_of_binary hb

/-- Items between commas are read to the closing mark. -/
theorem parses_items {closer : Mark} (hc : closer = .closeParen ∨ closer = .closeBracket)
    {es : List Expr} (hne : es ≠ []) (h : ∀ e ∈ es, Restores stop e) :
    Parses (fun ts => Reads (items stop closer ts))
      (separated (es.map Expr.tokens) ++ .mark closer :: rs) es rs := by
  have hcomma : closer ≠ .comma := by rcases hc with rfl | rfl <;> decide
  have hcloser : joins (.mark closer : TokenKind Text) = none ∧ closer ≠ .colon := by
    rcases hc with rfl | rfl <;> decide
  induction es with
  | nil => exact absurd rfl hne
  | cons e es ih =>
      have he := h e List.mem_cons_self
      intro ts hts
      cases es with
      | nil =>
          have hone : separated ([e].map Expr.tokens) = e.tokens := by
            simp [separated, List.intercalate]
          rw [hone] at hts
          obtain ⟨r, hr, hread⟩ := he.upTo closer hcloser ts hts
          obtain ⟨p, s, rfl, hs⟩ := plain_eq_mark hr
          exact ⟨s, hs, (items_iff hcomma).2 (.inr ⟨e, p, hread, rfl⟩)⟩
      | cons e' es =>
          rw [List.map_cons, separated_cons _ (by simp), List.append_assoc, List.cons_append] at hts
          obtain ⟨r, hr, hread⟩ := he.upTo .comma (by decide) ts hts
          obtain ⟨p, s, rfl, hs⟩ := plain_eq_mark hr
          obtain ⟨u, hu, hmore⟩ := ih (List.cons_ne_nil _ _)
            (fun x hx => h x (List.mem_cons_of_mem e hx)) s hs
          exact ⟨u, hu, (items_iff hcomma).2 (.inl ⟨e, p, s, _, hread, hmore, rfl⟩)⟩

/-- A sequence is read to its closing mark. -/
theorem parses_sequence {closer : Mark} (hc : closer = .closeParen ∨ closer = .closeBracket)
    {es : List Expr} (h : ∀ e ∈ es, Restores stop e) :
    Parses (fun ts => Reads (sequence stop closer ts))
      (separated (es.map Expr.tokens) ++ .mark closer :: rs) es rs := by
  by_cases hne : es = []
  · subst hne
    intro ts hts
    obtain ⟨p, s, rfl, hs⟩ := plain_eq_mark (m := closer) hts
    exact ⟨s, hs, sequence_iff.2 (.inl ⟨p, rfl, rfl⟩)⟩
  · refine Parses.imp ?_ (parses_items hc hne h)
    intro ts r _ hread
    refine sequence_iff.2 (.inr ⟨?_, hread⟩)
    intro p s hts
    subst hts
    -- the first item does not begin with the closing mark
    have hcomma : closer ≠ .comma := by rcases hc with rfl | rfl <;> decide
    have hopen : closer = .openParen ∨ closer = .openBracket ∨ closer = .openBrace := by
      rcases (items_iff hcomma).1 hread with ⟨e, q, u, es', he, -⟩ | ⟨e, q, he, -⟩
      · exact opens_of_pipe he
      · exact opens_of_pipe he
    rcases hc with rfl | rfl
    · revert hopen
      decide
    · revert hopen
      decide

/-- Arguments behind colons are read until there is no colon. -/
theorem parses_pipeArgs {args : List Expr} (h : ∀ a ∈ args, Restores stop a)
    (hr : Stops .cond rs) (hc : NoColon rs) :
    Parses (fun ts => Trails (pipeArgs stop ts))
      (introduced (args.map fun a => Slot.argument.enclose a a.tokens) ++ rs) args rs := by
  induction args with
  | nil =>
      intro ts hts
      refine ⟨ts, hts, pipeArgs_iff.2 (.inl ⟨?_, rfl, rfl⟩)⟩
      intro p s heq
      subst heq
      exact hc (plain s) hts.symm
  | cons a args ih =>
      have ha : Yields stop .cond a (Slot.argument.enclose a a.tokens) :=
        (h a List.mem_cons_self).inSlot .argument (by rintro ⟨⟩) (by rintro _ ⟨⟩) (by rintro _ ⟨⟩)
      have hstop : Stops .cond
          (introduced (args.map fun a => Slot.argument.enclose a a.tokens) ++ rs) := by
        cases args with
        | nil => exact hr
        | cons a args => exact stops_of_joins_none rfl
      intro ts hts
      rw [List.map_cons, introduced, List.flatMap_cons, List.append_assoc, List.cons_append] at hts
      obtain ⟨p, s, rfl, hs⟩ := plain_eq_mark hts
      obtain ⟨r, hr', hread⟩ := ha.parses (by rintro ⟨⟩) hstop s hs
      obtain ⟨u, hu, hmore⟩ := ih (fun x hx => h x (List.mem_cons_of_mem a hx)) r hr'
      exact ⟨u, hu, pipeArgs_iff.2 (.inr ⟨p, s, a, r, args, rfl, hread, hmore, rfl⟩)⟩

/-- The tokens of the entries of a map. -/
def entryTokens (keys : List MapKey) (values : List Expr) : List (List (TokenKind Text)) :=
  keys.zipWith (fun k ts => k.token :: .mark .colon :: ts) (values.map Expr.tokens)

/-- The value of an entry is read from its colon to the next mark. -/
theorem parses_entryValue {key : MapKey} {v : Expr} (hv : Restores stop v) (m : Mark)
    (hm : joins (.mark m : TokenKind Text) = none ∧ m ≠ .colon) :
    Parses (fun ts => Trails (entryValue stop key ts))
      (.mark .colon :: (v.tokens ++ .mark m :: rs)) v (.mark m :: rs) := by
  intro ts hts
  obtain ⟨p, s, rfl, hs⟩ := plain_eq_mark hts
  obtain ⟨r, hr, hread⟩ := hv.upTo m hm s hs
  exact ⟨r, hr, entryValue_iff.2 (.inl ⟨p, s, rfl, hread⟩)⟩

/-- Entries between commas are read to the closing brace. -/
theorem parses_entries {keys : List MapKey} {values : List Expr}
    (hlen : keys.length = values.length) (hne : keys ≠ []) (h : ∀ v ∈ values, Restores stop v) :
    Parses (fun ts => Reads (entries stop ts))
      (separated (entryTokens keys values) ++ .mark .closeBrace :: rs) (keys, values) rs := by
  induction keys generalizing values with
  | nil => exact absurd rfl hne
  | cons key keys ih =>
      cases values with
      | nil => cases hlen
      | cons v values =>
          have hv := h v List.mem_cons_self
          have hlen' : keys.length = values.length := Nat.succ.inj hlen
          intro ts hts
          by_cases hkeys : keys = []
          · subst hkeys
            have hvalues : values = [] := List.length_eq_zero_iff.1 hlen'.symm
            subst hvalues
            have hone : separated (entryTokens [key] [v])
                = key.token :: .mark .colon :: v.tokens := by
              simp [entryTokens, separated, List.intercalate]
            rw [hone, List.cons_append, List.cons_append] at hts
            obtain ⟨t, s, rfl, ht, hs⟩ := plain_eq_keyToken hts
            obtain ⟨r, hr, hvalue⟩ := parses_entryValue hv .closeBrace (by decide) s hs
            obtain ⟨q, u, rfl, hu⟩ := plain_eq_mark hr
            exact ⟨u, hu, entries_iff.2 ⟨t, s, key, v, rfl, ht, .inr ⟨q, hvalue, rfl⟩⟩⟩
          · have hmore : entryTokens keys values ≠ [] := by
              intro hnil
              have hzero := congrArg List.length hnil
              rw [entryTokens, List.length_zipWith, List.length_map, ← hlen', Nat.min_self] at hzero
              exact hkeys (List.length_eq_zero_iff.1 hzero)
            have hcons : entryTokens (key :: keys) (v :: values)
                = (key.token :: .mark .colon :: v.tokens) :: entryTokens keys values := rfl
            rw [hcons, separated_cons _ hmore, List.append_assoc, List.cons_append,
              List.cons_append, List.cons_append] at hts
            obtain ⟨t, s, rfl, ht, hs⟩ := plain_eq_keyToken hts
            obtain ⟨r, hr, hvalue⟩ := parses_entryValue hv .comma (by decide) s hs
            obtain ⟨q, u, rfl, hu⟩ := plain_eq_mark hr
            obtain ⟨w, hw, hrest⟩ := ih hlen' hkeys
              (fun x hx => h x (List.mem_cons_of_mem v hx)) u hu
            exact ⟨w, hw, entries_iff.2 ⟨t, s, key, v, rfl, ht,
              .inl ⟨q, u, _, hvalue, hrest, rfl⟩⟩⟩

-- ======================================================== expressions

/-- An expression whose symbol is not a choice is restored when it is
yielded. -/
theorem restores_of_yields {s : Symbol} {e : Expr} (hs : e.symbol = s) (hc : s ≠ .cond)
    (h : Yields stop s e e.tokens) : Restores stop e := by
  refine ⟨fun _ => by rw [hs]; exact h, fun hcond => ?_⟩
  rw [hs] at hcond
  exact absurd hcond hc

/-- An atom is read back. -/
theorem restores_atom {k : TokenKind Text} {e : Expr} (hs : e.symbol = .primary)
    (ht : e.tokens = [k]) (hk : atom k = some e) : Restores stop e := by
  refine restores_of_yields hs nofun ?_
  intro rs v ss hf ts hts
  obtain ⟨rfl, rfl⟩ := hf
  rw [ht] at hts
  obtain ⟨k', p, s, rfl, hk', hs⟩ := plain_eq_cons hts
  refine ⟨s, hs, primary_iff.2 ⟨k', p, s, rfl, .inl ⟨?_, rfl⟩⟩⟩
  rw [← atom_map Backtick.body, hk', hk]

/-- A list is read back when its items are. -/
theorem restores_array {items : List Expr} (h : ∀ e ∈ items, Restores stop e) :
    Restores stop (.array items) := by
  refine restores_of_yields rfl nofun ?_
  intro rs v ss hf ts hts
  obtain ⟨rfl, rfl⟩ := hf
  rw [Expr.tokens, List.cons_append, List.cons_append, List.append_assoc,
    List.singleton_append] at hts
  obtain ⟨p, s, rfl, hs⟩ := plain_eq_mark hts
  obtain ⟨r, hr, hread⟩ := parses_sequence (.inr rfl) h s hs
  exact ⟨r, hr, primary_iff.2 ⟨_, p, s, rfl, .inr (.inr (.inr (.inl ⟨items, rfl, hread, rfl⟩)))⟩⟩

/-- A map is read back when its values are. -/
theorem restores_map {keys : List MapKey} {values : List Expr}
    (hlen : keys.length = values.length) (h : ∀ v ∈ values, Restores stop v) :
    Restores stop (.map keys values) := by
  refine restores_of_yields rfl nofun ?_
  intro rs v ss hf ts hts
  obtain ⟨rfl, rfl⟩ := hf
  rw [Expr.tokens, List.cons_append, List.cons_append, List.append_assoc,
    List.singleton_append] at hts
  obtain ⟨p, s, rfl, hs⟩ := plain_eq_mark hts
  have hbody : ∃ r, plain r = ss ∧ Reads (mapBody stop s) (keys, values) r := by
    by_cases hkeys : keys = []
    · subst hkeys
      have hvalues : values = [] := List.length_eq_zero_iff.1 hlen.symm
      subst hvalues
      obtain ⟨q, u, rfl, hu⟩ := plain_eq_mark (m := .closeBrace) hs
      exact ⟨u, hu, mapBody_iff.2 (.inl ⟨q, rfl, rfl⟩)⟩
    · obtain ⟨r, hr, hread⟩ := parses_entries hlen hkeys h s hs
      refine ⟨r, hr, mapBody_iff.2 (.inr ⟨?_, hread⟩)⟩
      intro q u heq
      subst heq
      obtain ⟨t, u', key, value, heq, hkey, -⟩ := entries_iff.1 hread
      cases heq
      cases hkey
  obtain ⟨r, hr, hread⟩ := hbody
  exact ⟨r, hr, primary_iff.2
    ⟨_, p, s, rfl, .inr (.inr (.inr (.inr ⟨keys, values, rfl, hread, rfl⟩)))⟩⟩

/-- A receiver with one more read, call or assertion on it. -/
theorem restores_access {x e : Expr} {us : List (TokenKind Text)} (hx : Restores stop x)
    (hs : e.symbol = .access) (ht : e.tokens = (Slot.operand .access).enclose x x.tokens ++ us)
    (hstep : ∀ rs, Parses (AccessStep stop x) (us ++ rs) e rs) : Restores stop e := by
  have hreceiver : Yields stop .access x ((Slot.operand .access).enclose x x.tokens) :=
    hx.inSlot (.operand .access) nofun nofun (by intro s hs; cases hs; decide)
  refine restores_of_yields hs nofun ?_
  intro rs v ss hf
  rw [ht, List.append_assoc]
  refine hreceiver _ v ss (Parses.bind ?_ (hstep rs) hf)
  intro ts r s hturn htail
  exact accessTail_iff.2 (.inr ⟨e, r, hturn, htail⟩)

/-- The name of a property is read back. -/
theorem parses_property {x : Expr} {name : Text} (rs : List (TokenKind Text)) :
    Parses (AccessStep stop x) ([.mark .dot, nameToken name] ++ rs) (.property x name) rs := by
  intro ts hts
  obtain ⟨p, s, rfl, hs⟩ := plain_eq_mark hts
  obtain ⟨t, u, rfl, ht, hu⟩ := plain_eq_nameToken hs
  exact ⟨u, hu, .property ht⟩

/-- The name of an optional property is read back. -/
theorem parses_safeProperty {x : Expr} {name : Text} (rs : List (TokenKind Text)) :
    Parses (AccessStep stop x) ([.operator .optional, nameToken name] ++ rs)
      (.safeProperty x name) rs := by
  intro ts hts
  obtain ⟨p, s, rfl, hs⟩ := plain_eq_operator hts
  obtain ⟨t, u, rfl, ht, hu⟩ := plain_eq_nameToken hs
  exact ⟨u, hu, .safeProperty ht⟩

/-- The key of an access is read back. -/
theorem parses_keyTail {key : Expr} (hk : Restores stop key) :
    Parses (fun ts => Reads (keyTail stop ts)) (key.tokens ++ .mark .closeBracket :: rs) key
      rs := by
  intro ts hts
  obtain ⟨r, hr, hread⟩ := hk.upTo .closeBracket (by decide) ts hts
  obtain ⟨q, u, rfl, hu⟩ := plain_eq_mark hr
  exact ⟨u, hu, keyTail_iff.2 ⟨q, hread⟩⟩

/-- A sign is read back in front of what is. -/
theorem restores_front {k : TokenKind Text} (make : Expr → Expr) {x : Expr}
    (hx : Restores stop x) (hk : prefixed k = some make) (hs : (make x).symbol = .unary)
    (ht : (make x).tokens = k :: (Slot.operand .unary).enclose x x.tokens) :
    Restores stop (make x) := by
  have hoperand : Yields stop .unary x ((Slot.operand .unary).enclose x x.tokens) :=
    hx.inSlot (.operand .unary) nofun nofun (by intro s hs; cases hs; decide)
  refine restores_of_yields hs nofun ?_
  intro rs v ss hf ts hts
  obtain ⟨rfl, rfl, hstop⟩ := hf
  rw [ht, List.cons_append] at hts
  obtain ⟨k', p, s, rfl, hk', hs⟩ := plain_eq_cons hts
  obtain ⟨r, hr, hread⟩ := hoperand _ _ _ ⟨rfl, rfl, hstop⟩ s hs
  refine ⟨r, hr, unary_iff.2 (.inl ⟨k', p, s, make, x, rfl, ?_, hread, rfl⟩)⟩
  rw [← prefixed_map Backtick.body, hk', hk]

/-- A power is read back when its sides are. -/
theorem restores_power {left right : Expr} (hl : Restores stop left) (hr : Restores stop right) :
    Restores stop (.binary .pow left right) := by
  have hbase : Yields stop .unary left ((Slot.operand .unary).enclose left left.tokens) :=
    hl.inSlot (.operand .unary) nofun nofun (by intro s hs; cases hs; decide)
  have hexponent :
      Yields stop (.binary 0) right ((Slot.operand (.binary 0)).enclose right right.tokens) :=
    hr.inSlot (.operand (.binary 0)) nofun (by intro n hn; cases hn; decide)
      (by intro s hs; cases hs; decide)
  refine restores_of_yields rfl nofun ?_
  intro rs v ss hf ts hts
  obtain ⟨rfl, rfl, hstop⟩ := hf
  rw [Expr.tokens, List.append_assoc, List.cons_append] at hts
  obtain ⟨r, hr, hread⟩ := hbase _ _ _ ⟨rfl, rfl, stops_of_joins rfl (by decide)⟩ ts hts
  obtain ⟨p, s, rfl, hs⟩ := plain_eq_operator hr
  obtain ⟨u, hu, hright⟩ := hexponent _ _ _ ⟨rfl, rfl, hstop⟩ s hs
  refine ⟨u, hu, ?_⟩
  show Reads (binary stop 0 ts) _ u
  rw [binary_zero]
  refine power_iff.2 (.inr ⟨left, p, s, right, hread, ?_, rfl⟩)
  rw [← binary_zero]
  exact hright

/-- An operator of a level is read back when its sides are. -/
theorem restores_join {n : Nat} {op : BinaryOp} (hop : op.level = n + 1) {left right : Expr}
    (hl : Restores stop left) (hr : Restores stop right) :
    Restores stop (.binary op left right) := by
  have hn : n + 1 ≤ BinaryOp.loosest := hop ▸ level_le_loosest op
  have hslot : op.leftSymbol = .binary (n + 1) ∧ op.rightSymbol = .binary n := by
    unfold BinaryOp.leftSymbol BinaryOp.rightSymbol
    rw [hop]
    exact ⟨rfl, rfl⟩
  have hleft : Yields stop (.binary (n + 1)) left
      ((Slot.operand (.binary (n + 1))).enclose left left.tokens) :=
    hl.inSlot (.operand (.binary (n + 1))) (by rintro ⟨⟩) (by intro m hm; cases hm; exact hn)
      (by intro s hs; cases hs; simp only [Symbol.rank]; omega)
  have hright : Yields stop (.binary n) right
      ((Slot.operand (.binary n)).enclose right right.tokens) :=
    hr.inSlot (.operand (.binary n)) (by rintro ⟨⟩) (by intro m hm; cases hm; omega)
      (by intro s hs; cases hs; simp only [Symbol.rank]; omega)
  refine restores_of_yields (s := .binary (n + 1)) (congrArg Symbol.binary hop) (by rintro ⟨⟩) ?_
  intro rs v ss hf
  obtain ⟨htail, hstop⟩ := hf
  rw [Expr.tokens, hslot.1, hslot.2, List.append_assoc, List.cons_append]
  -- the operator goes on from the left operand, and then what follows goes on
  refine hleft _ v ss
    ⟨?_, stops_of_joins (congrArg (some ∘ Symbol.binary) hop) (Nat.lt_succ_self _)⟩
  intro ts hts
  obtain ⟨p, s, rfl, hs⟩ := plain_eq_operator hts
  obtain ⟨r, hr, hread⟩ := hright.parses (by rintro ⟨⟩) hstop s hs
  obtain ⟨u, hu, hmore⟩ := htail r hr
  exact ⟨u, hu, binaryTail_iff.2 (.inr ⟨_, r, .join hop hread, hmore⟩)⟩

/-- A choice is read back when its parts are. -/
theorem restores_choice {test yes no : Expr} (ht : Restores stop test) (hy : Restores stop yes)
    (hn : Restores stop no) : Restores stop (.conditional test yes no) := by
  have htest : Yields stop (.binary BinaryOp.loosest) test
      ((Slot.operand (.binary BinaryOp.loosest)).enclose test test.tokens) :=
    ht.inSlot (.operand (.binary BinaryOp.loosest)) (by rintro ⟨⟩)
      (by intro n hn; cases hn; exact Nat.le_refl _) (by intro s hs; cases hs; decide)
  refine ⟨fun hcond => absurd rfl hcond, fun _ => ?_⟩
  intro rs hstop ts hts
  rw [Expr.tokens, List.append_assoc, List.append_assoc, List.cons_append, List.cons_append] at hts
  obtain ⟨r, hr, hread⟩ := htest.parses (by rintro ⟨⟩) (stops_of_joins rfl (by decide)) ts hts
  obtain ⟨p, s, rfl, hs⟩ := plain_eq_operator hr
  obtain ⟨u, hu, hyes⟩ := hy.inBranch.parses (stops_of_joins_none rfl) s hs
  obtain ⟨q, v, rfl, hv⟩ := plain_eq_mark hu
  obtain ⟨w, hw, hno⟩ := hn.inBranch.parses hstop v hv
  exact ⟨w, hw, cond_iff.2 (.inr ⟨test, p, s, yes, q, v, no, hread, hyes, hno, rfl⟩)⟩

/-- A filter is read back when its input and its arguments are. -/
theorem restores_pipe {input : Expr} {name : Text} {args : List Expr} (hi : Restores stop input)
    (ha : ∀ a ∈ args, Restores stop a) : Restores stop (.pipe input name args) := by
  have hinput : Yields stop .pipe input (Slot.input.enclose input input.tokens) :=
    hi.inSlot .input (by rintro ⟨⟩) (by rintro _ ⟨⟩) (by rintro _ ⟨⟩)
  refine restores_of_yields rfl (by rintro ⟨⟩) ?_
  intro rs v ss hf
  obtain ⟨htail, hstop, hcolon⟩ := hf
  rw [Expr.tokens, List.append_assoc, List.cons_append, List.cons_append]
  refine hinput _ v ss ⟨?_, stops_of_joins rfl (by decide), noColon_cons (by rintro ⟨⟩)⟩
  intro ts hts
  obtain ⟨p, s, rfl, hs⟩ := plain_eq_operator hts
  obtain ⟨t, u, rfl, ht, hu⟩ := plain_eq_nameToken hs
  obtain ⟨r, hr, hargs⟩ := parses_pipeArgs ha hstop hcolon u hu
  obtain ⟨w, hw, hmore⟩ := htail r hr
  exact ⟨w, hw, pipeTail_iff.2 (.inr ⟨_, r, .apply ht hargs, hmore⟩)⟩

/-- Every tree that can be printed is read back. -/
theorem restores_of_printable {e : Expr} (h : e.Printable) : Restores stop e := by
  induction h with
  | @literal value _ =>
      refine restores_atom (k := value.token) rfl (by rw [Expr.tokens]) ?_
      cases value with
      | bool b => cases b <;> rfl
      | _ => rfl
  | this => exact restores_atom rfl (by rw [Expr.tokens]) rfl
  | name _ _ => exact restores_atom rfl (by rw [Expr.tokens]) rfl
  | property hx _ ih =>
      refine restores_access ih ?_ ?_ parses_property
      · cases hx <;> rfl
      · exact Expr.tokens_property hx.ne_context _
  | safeProperty _ _ ih => exact restores_access ih rfl (by rw [Expr.tokens]) parses_safeProperty
  | index _ _ ihx ihk =>
      refine restores_access ihx rfl (by rw [Expr.tokens, List.append_assoc]) ?_
      intro rs ts hts
      rw [List.cons_append, List.cons_append, List.append_assoc] at hts
      obtain ⟨p, s, rfl, hs⟩ := plain_eq_mark hts
      obtain ⟨r, hr, hread⟩ := parses_keyTail ihk s hs
      exact ⟨r, hr, .index hread⟩
  | safeIndex _ _ ihx ihk =>
      refine restores_access ihx rfl (by rw [Expr.tokens, List.append_assoc]) ?_
      intro rs ts hts
      rw [List.cons_append, List.cons_append, List.cons_append, List.cons_append,
        List.append_assoc] at hts
      obtain ⟨p, s, rfl, hs⟩ := plain_eq_operator hts
      obtain ⟨q, u, rfl, hu⟩ := plain_eq_mark hs
      obtain ⟨r, hr, hread⟩ := parses_keyTail ihk u hu
      exact ⟨r, hr, .safeIndex hread⟩
  | call _ _ ihx iha =>
      refine restores_access ihx rfl (by rw [Expr.tokens, List.append_assoc]) ?_
      intro rs ts hts
      rw [List.cons_append, List.cons_append, List.append_assoc] at hts
      obtain ⟨p, s, rfl, hs⟩ := plain_eq_mark hts
      obtain ⟨r, hr, hread⟩ := parses_sequence (.inl rfl) iha s hs
      exact ⟨r, hr, .call hread⟩
  | safeCall _ _ ihx iha =>
      refine restores_access ihx rfl (by rw [Expr.tokens, List.append_assoc]) ?_
      intro rs ts hts
      rw [List.cons_append, List.cons_append, List.cons_append, List.cons_append,
        List.append_assoc] at hts
      obtain ⟨p, s, rfl, hs⟩ := plain_eq_operator hts
      obtain ⟨q, u, rfl, hu⟩ := plain_eq_mark hs
      obtain ⟨r, hr, hread⟩ := parses_sequence (.inl rfl) iha u hu
      exact ⟨r, hr, .safeCall hread⟩
  | assertion _ ih =>
      refine restores_access ih rfl (by rw [Expr.tokens]) ?_
      intro rs ts hts
      obtain ⟨p, s, rfl, hs⟩ := plain_eq_operator hts
      exact ⟨s, hs, .assertion⟩
  | not _ ih => exact restores_front .not ih rfl rfl (by rw [Expr.tokens])
  | typeof _ ih => exact restores_front .typeof ih rfl rfl (by rw [Expr.tokens])
  | @unary op x _ ih =>
      refine restores_front (k := op.token) (.unary op) ih ?_ rfl (by rw [Expr.tokens])
      cases op <;> rfl
  | @binary op left right _ _ ihl ihr =>
      -- powers are written from the right, all other operators from the left
      cases hop : op.level with
      | zero =>
          have hpow : op = .pow := by
            revert hop
            cases op <;> decide
          subst hpow
          exact restores_power ihl ihr
      | succ n => exact restores_join hop ihl ihr
  | conditional _ _ _ iht ihy ihn => exact restores_choice iht ihy ihn
  | pipe _ _ _ ihi iha => exact restores_pipe ihi iha
  | array _ ih => exact restores_array ih
  | map hlen _ _ ih => exact restores_map hlen ih

-- ============================================================ spelling

/-- A name is spelled by its token, reserved or not. -/
theorem spellable_nameToken {n : Text} (h : Text.isIdentifier n = true) :
    (nameToken n).Spellable := by
  unfold nameToken
  split
  · trivial
  · next hnone => exact ⟨h, hnone⟩

/-- The key of a map can be spelled. -/
theorem spellable_keyToken {key : MapKey} (h : key.Printable) : key.token.Spellable := by
  unfold MapKey.token
  rcases h with hquoted | hname
  · rw [if_pos hquoted]
    trivial
  · split
    · trivial
    · exact spellable_nameToken hname

/-- What can be spelled can be spelled in parentheses. -/
theorem spellable_enclose {slot : Slot} {e : Expr} (h : ∀ k ∈ ks, k.Spellable) :
    ∀ k ∈ slot.enclose e ks, k.Spellable := by
  unfold Slot.enclose
  split
  · simp only [List.forall_mem_cons, List.forall_mem_append, List.cons_append]
    exact ⟨trivial, h, trivial, nofun⟩
  · exact h

/-- Parts that can be spelled can be spelled with commas between them. -/
theorem spellable_separated {tss : List (List (TokenKind Text))}
    (h : ∀ ts ∈ tss, ∀ k ∈ ts, k.Spellable) : ∀ k ∈ separated tss, k.Spellable := by
  induction tss with
  | nil => exact nofun
  | cons ts tss ih =>
      have hts := h ts List.mem_cons_self
      have htss := ih fun us hus => h us (List.mem_cons_of_mem ts hus)
      cases tss with
      | nil => simpa [separated, List.intercalate] using hts
      | cons us tss =>
          rw [separated_cons _ (List.cons_ne_nil _ _), List.forall_mem_append,
            List.forall_mem_cons]
          exact ⟨hts, trivial, htss⟩

/-- Parts that can be spelled can be spelled with colons before them. -/
theorem spellable_introduced {tss : List (List (TokenKind Text))}
    (h : ∀ ts ∈ tss, ∀ k ∈ ts, k.Spellable) : ∀ k ∈ introduced tss, k.Spellable := by
  intro k hk
  obtain ⟨ts, hts, hk⟩ := List.mem_flatMap.1 hk
  rcases List.mem_cons.1 hk with rfl | hk
  · trivial
  · exact h ts hts k hk

/-- The tokens of an expression that is printable can be spelled. -/
theorem spellable_tokens {e : Expr} (h : e.Printable) : ∀ k ∈ e.tokens, k.Spellable := by
  induction h with
  | @literal value h =>
      rw [Expr.tokens, List.forall_mem_singleton]
      cases value with
      | bool b => cases b <;> trivial
      | number value => cases value <;> exact h
      | _ => trivial
  | this =>
      rw [Expr.tokens, List.forall_mem_singleton]
      trivial
  | name hn hk =>
      rw [Expr.tokens, List.forall_mem_singleton]
      exact ⟨hn, hk⟩
  | property hx hn ih =>
      rw [Expr.tokens_property hx.ne_context]
      simp only [List.forall_mem_append, List.forall_mem_cons]
      exact ⟨spellable_enclose ih, trivial, spellable_nameToken hn, List.forall_mem_nil _⟩
  | safeProperty _ hn ih =>
      rw [Expr.tokens]
      simp only [List.forall_mem_append, List.forall_mem_cons]
      exact ⟨spellable_enclose ih, trivial, spellable_nameToken hn, List.forall_mem_nil _⟩
  | index _ _ ihx ihk =>
      rw [Expr.tokens]
      simp only [List.forall_mem_append, List.forall_mem_cons]
      exact ⟨⟨spellable_enclose ihx, trivial, ihk⟩, trivial, List.forall_mem_nil _⟩
  | safeIndex _ _ ihx ihk =>
      rw [Expr.tokens]
      simp only [List.forall_mem_append, List.forall_mem_cons]
      exact ⟨⟨spellable_enclose ihx, trivial, trivial, ihk⟩, trivial, List.forall_mem_nil _⟩
  | call _ _ ihx iha =>
      rw [Expr.tokens]
      simp only [List.forall_mem_append, List.forall_mem_cons]
      refine ⟨⟨spellable_enclose ihx, trivial, spellable_separated ?_⟩, trivial, List.forall_mem_nil _⟩
      simpa using iha
  | safeCall _ _ ihx iha =>
      rw [Expr.tokens]
      simp only [List.forall_mem_append, List.forall_mem_cons]
      refine ⟨⟨spellable_enclose ihx, trivial, trivial, spellable_separated ?_⟩, trivial, List.forall_mem_nil _⟩
      simpa using iha
  | assertion _ ih =>
      rw [Expr.tokens]
      simp only [List.forall_mem_append, List.forall_mem_cons]
      exact ⟨spellable_enclose ih, trivial, List.forall_mem_nil _⟩
  | not _ ih =>
      rw [Expr.tokens, List.forall_mem_cons]
      exact ⟨trivial, spellable_enclose ih⟩
  | typeof _ ih =>
      rw [Expr.tokens, List.forall_mem_cons]
      exact ⟨trivial, spellable_enclose ih⟩
  | @unary op x _ ih =>
      rw [Expr.tokens, List.forall_mem_cons]
      refine ⟨?_, spellable_enclose ih⟩
      cases op <;> trivial
  | binary _ _ ihl ihr =>
      rw [Expr.tokens, List.forall_mem_append, List.forall_mem_cons]
      exact ⟨spellable_enclose ihl, trivial, spellable_enclose ihr⟩
  | conditional _ _ _ iht ihy ihn =>
      rw [Expr.tokens]
      simp only [List.forall_mem_append, List.forall_mem_cons]
      exact ⟨⟨spellable_enclose iht, trivial, spellable_enclose ihy⟩, trivial,
        spellable_enclose ihn⟩
  | pipe _ hn _ ihi iha =>
      rw [Expr.tokens]
      simp only [List.forall_mem_append, List.forall_mem_cons]
      refine ⟨spellable_enclose ihi, trivial, spellable_nameToken hn, spellable_introduced ?_⟩
      intro ts hts
      obtain ⟨a, ha, rfl⟩ := List.mem_map.1 hts
      exact spellable_enclose (iha a ha)
  | array _ ih =>
      rw [Expr.tokens]
      simp only [List.forall_mem_append, List.forall_mem_cons, List.cons_append]
      refine ⟨trivial, spellable_separated ?_, trivial, List.forall_mem_nil _⟩
      simpa using ih
  | @map keys values _ hk _ ih =>
      rw [Expr.tokens]
      simp only [List.forall_mem_append, List.forall_mem_cons, List.cons_append]
      refine ⟨trivial, spellable_separated ?_, trivial, List.forall_mem_nil _⟩
      intro ts hts
      rw [← List.map_uncurry_zip_eq_zipWith] at hts
      obtain ⟨⟨key, us⟩, hmem, rfl⟩ := List.mem_map.1 hts
      obtain ⟨v, hv, rfl⟩ := List.mem_map.1 (List.of_mem_zip hmem).2
      simp only [Function.uncurry, List.forall_mem_cons]
      exact ⟨spellable_keyToken (hk key (List.of_mem_zip hmem).1), trivial, ih v hv⟩

/-- No tree is printed as nothing. -/
theorem tokens_ne_nil {e : Expr} (h : e.Printable) : e.tokens ≠ [] := by
  intro hnil
  have hrestores : Restores 0 e := restores_of_printable h
  obtain ⟨r, -, hlt, -⟩ := hrestores.closed (stops_nil _) nofun [] (by rw [hnil]; rfl)
  exact Nat.not_lt_zero _ hlt

end KeyHarvest.Grammar

namespace KeyHarvest.Expr

open Grammar

-- =========================================================== bindings

/-- Reading a print gives back the expression. -/
theorem parseBinding_print (q : Quote) {e : Expr} (h : e.Printable) :
    parseBinding (e.print q) = .ok (.sourced e (e.print q)) := by
  obtain ⟨ts, hts, hkinds⟩ := tokens_join_spell q (spellable_tokens h) (tokens_ne_nil h) 0
  have hrestores : Restores (0 + (e.print q).length) e := restores_of_printable h
  have hitems : plain (ts.map toItem) = e.tokens ++ [] := by
    rw [plain_map_toItem, hkinds, List.append_nil]
  obtain ⟨r, hr, hread⟩ := hrestores.closed (stops_nil _) nofun _ hitems
  have hnil : r = [] := List.map_eq_nil_iff.1 hr
  subst hnil
  have hparse : parseAt 0 (e.print q) = .ok e := by
    rw [parseAt_eq, show tokenize 0 (e.print q) = .ok ts from hts]
    exact whole_eq_ok.2 (.inr hread)
  unfold parseBinding
  rw [hparse]
  rfl

/-- A choice with a pipe in its branch, at the input of a pipe that is
named like a reserved word and whose argument is a choice, with operators
of both associativities. -/
theorem parseBinding_print_nested :
    let a : Expr := .property .context ['a']
    let text : Expr := .literal (.text ['i', 't', '\'', 's'])
    let e : Expr := .pipe (.conditional a (.pipe a ['p'] []) a) ['t', 'r', 'u', 'e']
      [.conditional a (.binary .sub a (.binary .sub a a))
        (.binary .pow (.unary .minus a) (.binary .pow text a))]
    let t : Text :=
      "( a ? ( a | p ) : a ) | true : ( a ? a - ( a - a ) : - a ** 'it\\'s' ** a )"
    e.Printable ∧ e.print .single = t ∧ parseBinding t = .ok (.sourced e t) := by
  intro a text e t
  have ha : a.Printable := .name rfl rfl
  have htext : text.Printable := .literal trivial
  have he : e.Printable := by
    refine .pipe (.conditional ha (.pipe ha rfl nofun) ha) rfl ?_
    rw [List.forall_mem_singleton]
    exact .conditional ha (.binary ha (.binary ha ha)) (.binary (.unary ha) (.binary htext ha))
  have ht : e.print .single = t := by cbv
  exact ⟨he, ht, ht ▸ parseBinding_print .single he⟩

end KeyHarvest.Expr
