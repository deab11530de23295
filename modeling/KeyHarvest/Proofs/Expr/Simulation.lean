/-
Related token lists are read alike. The grammar looks at the kinds of
tokens, at the outcomes of backtick literals, and at positions only to
report them. So when two token lists have the same kinds all along, the
same symbols read the same trees from them, and where they are refused
they are refused together.

`Simulation` says what a relation on token lists must keep for this. The
lists agree token by token until both of them end, and the end of a list
may also be a backtick literal that nobody gets past. How errors are
related is a parameter: positions may be moved, outcomes of literals may
be exchanged, or a list may be compared with a part of itself.

# The induction

As for soundness it is one induction on the number of tokens, the symbols
taken from the tightest to the loosest (`AlikeBelow`).
-/
import KeyHarvest.Proofs.Expr.Item
import KeyHarvest.Proofs.Expr.Reading

namespace KeyHarvest.Grammar

variable {α β γ δ ε : Type}

-- ====================================================== alike results

/-- Two results that are alike: both succeed with related values, or both
are refused with related errors. -/
def Alike (S : α → β → Prop) (E : ε → ε → Prop) : Except ε α → Except ε β → Prop
  | .ok a, .ok b => S a b
  | .error e, .error f => E e f
  | _, _ => False

theorem Alike.ok {S : α → β → Prop} {E : ε → ε → Prop} {a : α} {b : β} (h : S a b) :
    Alike S E (.ok a) (.ok b) := h

/-- Two steps are alike when each of them is. -/
theorem Alike.bind {S : α → β → Prop} {T : γ → δ → Prop} {E : ε → ε → Prop}
    {x : Except ε α} {y : Except ε β} {f : α → Except ε γ} {g : β → Except ε δ}
    (hx : Alike S E x y) (hf : ∀ a b, S a b → Alike T E (f a) (g b)) :
    Alike T E (x >>= f) (y >>= g) := by
  cases x with
  | error e =>
      cases y with
      | error e' => exact hx
      | ok b => exact hx.elim
  | ok a =>
      cases y with
      | error e' => exact hx.elim
      | ok b => exact hf a b hx

/-- Readings of the same value that leave related rests. -/
def SameReading (L : List Item → List Item → Prop) {ts us : List Item}
    (x : Reading α ts) (y : Reading α us) : Prop := x.value = y.value ∧ L x.rest y.rest

/-- The same for readings that may have taken nothing. -/
def SameTrailing (L : List Item → List Item → Prop) {ts us : List Item}
    (x : Trailing α ts) (y : Trailing α us) : Prop := x.value = y.value ∧ L x.rest y.rest

/-- A step after a reading goes on with one value and related rests. -/
theorem Alike.andThen {L : List Item → List Item → Prop} {E : ExprError → ExprError → Prop}
    {T : γ → δ → Prop} {ts us : List Item} {x : Except ExprError (Reading α ts)}
    {y : Except ExprError (Reading α us)} {f : Reading α ts → Except ExprError γ}
    {g : Reading α us → Except ExprError δ} (hx : Alike (SameReading L) E x y)
    (hf : ∀ v r s hr hs, L r s → Alike T E (f ⟨v, r, hr⟩) (g ⟨v, s, hs⟩)) :
    Alike T E (x >>= f) (y >>= g) := by
  refine hx.bind ?_
  intro ⟨v, r, hr⟩ ⟨w, s, hs⟩ ⟨hv, hrs⟩
  obtain rfl : v = w := hv
  exact hf v r s hr hs hrs

/-- The same after a reading that may have taken nothing. -/
theorem Alike.afterward {L : List Item → List Item → Prop} {E : ExprError → ExprError → Prop}
    {T : γ → δ → Prop} {ts us : List Item} {x : Except ExprError (Trailing α ts)}
    {y : Except ExprError (Trailing α us)} {f : Trailing α ts → Except ExprError γ}
    {g : Trailing α us → Except ExprError δ} (hx : Alike (SameTrailing L) E x y)
    (hf : ∀ v r s hr hs, L r s → Alike T E (f ⟨v, r, hr⟩) (g ⟨v, s, hs⟩)) :
    Alike T E (x >>= f) (y >>= g) := by
  refine hx.bind ?_
  intro ⟨v, r, hr⟩ ⟨w, s, hs⟩ ⟨hv, hrs⟩
  obtain rfl : v = w := hv
  exact hf v r s hr hs hrs

-- ======================================================== next tokens

/-- The kind of the next token, unless it is a backtick literal. -/
def lead : List Item → Option (TokenKind Empty)
  | [] => none
  | t :: _ =>
      match t.kind with
      | .keyword word => some (.keyword word)
      | .name n => some (.name n)
      | .text value => some (.text value)
      | .number value => some (.number value)
      | .template _ => none
      | .operator op => some (.operator op)
      | .mark m => some (.mark m)

/-- The next token, by its kind. -/
theorem lead_eq_some {ts : List Item} {k : TokenKind Empty} :
    lead ts = some k ↔ ∃ p r, ts = ⟨k.map Empty.elim, p⟩ :: r := by
  constructor
  · intro h
    cases ts with
    | nil => cases h
    | cons t r =>
        obtain ⟨kind, p⟩ := t
        cases kind <;> cases h <;> exact ⟨p, r, rfl⟩
  · intro h
    obtain ⟨p, r, rfl⟩ := h
    cases k with
    | template b => exact b.elim
    | _ => rfl

/-- A list that does not go on with a token does not begin with it. -/
theorem ne_of_lead_ne {ts : List Item} {k : TokenKind Empty} (h : lead ts ≠ some k) (p : Nat)
    (r : List Item) : ts ≠ ⟨k.map Empty.elim, p⟩ :: r :=
  fun heq => h (lead_eq_some.2 ⟨p, r, heq⟩)

/-- What goes on at the next token is decided by its kind. -/
theorem joint_eq_lead (ts : List Item) : joint ts = (lead ts).bind joins := by
  cases ts with
  | nil => rfl
  | cons t r =>
      obtain ⟨kind, p⟩ := t
      cases kind with
      | operator op => cases op <;> rfl
      | mark m => cases m <;> rfl
      | _ => rfl

/-- The name at the next token. -/
def nextName (ts : List Item) : Option Text := ts.head?.bind nameOf?

/-- The map key at the next token. -/
def nextKey (ts : List Item) : Option MapKey := ts.head?.bind mapKeyOf?

/-- What the next token makes of an operand behind it. -/
def nextPrefix (ts : List Item) : Option (Expr → Expr) := ts.head?.bind fun t => prefixed t.kind

/-- The next name is that of the leading token. -/
theorem nextName_eq_lead (ts : List Item) :
    nextName ts = (lead ts).bind fun k => nameOf? ⟨k.map Empty.elim, 0⟩ := by
  cases ts with
  | nil => rfl
  | cons t r =>
      obtain ⟨kind, p⟩ := t
      cases kind <;> rfl

/-- The next key of a map is that of the leading token. -/
theorem nextKey_eq_lead (ts : List Item) :
    nextKey ts = (lead ts).bind fun k => mapKeyOf? ⟨k.map Empty.elim, 0⟩ := by
  cases ts with
  | nil => rfl
  | cons t r =>
      obtain ⟨kind, p⟩ := t
      cases kind <;> rfl

/-- The next sign of a prefix is that of the leading token. -/
theorem nextPrefix_eq_lead (ts : List Item) : nextPrefix ts = (lead ts).bind prefixed := by
  cases ts with
  | nil => rfl
  | cons t r =>
      obtain ⟨kind, p⟩ := t
      cases kind with
      | keyword word => cases word <;> rfl
      | operator op =>
          cases op with
          | binary op => cases op <;> rfl
          | _ => rfl
      | _ => rfl

-- ======================================================== simulations

/-- The kinds of two tokens that the grammar cannot tell apart, up to the
outcome of a backtick literal. -/
inductive Kin (E : ExprError → ExprError → Prop) :
    TokenKind Backtick → TokenKind Backtick → Prop where
  | same (k : TokenKind Empty) : Kin E (k.map Empty.elim) (k.map Empty.elim)
  | literal {body : Text} {o o' : Except ExprError Expr} (h : Alike Eq E o o') :
      Kin E (.template ⟨body, o⟩) (.template ⟨body, o'⟩)

/-- The fronts of two lists: both go on with tokens of the same kind, or
both end, and an operand that is asked for there is refused. -/
inductive Front (stop stop' : Nat) (E : ExprError → ExprError → Prop)
    (L : List Item → List Item → Prop) : List Item → List Item → Prop where
  | step {k k' : TokenKind Backtick} {p q : Nat} {r s : List Item} (hk : Kin E k k')
      (hr : L r s) : Front stop stop' E L (⟨k, p⟩ :: r) (⟨k', q⟩ :: s)
  | ended {ts us : List Item} {e f : ExprError} (ht : lead ts = none) (hu : lead us = none)
      (hts : primary stop ts = .error e) (hus : primary stop' us = .error f) (h : E e f) :
      Front stop stop' E L ts us

/-- Every fault but an unexpected end, code point or token. -/
def isOther : ExprFault → Bool
  | .unexpectedEnd | .unexpectedCharacter _ | .unexpectedToken _ => false
  | _ => true

/-- What the grammar can find wrong at a token list other than its end: no
code point, since it sees none, and a token only if it is the next one. -/
inductive FoundAt : List Item → ExprFault → Prop where
  | next (t : Item) (r : List Item) : FoundAt (t :: r) (.unexpectedToken (shown t))
  | other {ts : List Item} {fault : ExprFault} (h : isOther fault = true) : FoundAt ts fault

namespace FoundAt

variable {ts : List Item} {fault : ExprFault}

/-- A fault that is found at an item is not that of the end. -/
theorem ne_end (h : FoundAt ts fault) : fault ≠ .unexpectedEnd := by
  cases h with
  | next => nofun
  | other h =>
      intro hfault
      cases hfault
      cases h

/-- A fault that is found at an item is not that of a stray character. -/
theorem ne_character (h : FoundAt ts fault) (c : CodePoint) : fault ≠ .unexpectedCharacter c := by
  cases h with
  | next => nofun
  | other h =>
      intro hfault
      cases hfault
      cases h

/-- A token that is shown is the next one. -/
theorem shows {v : Text} (h : FoundAt ts (.unexpectedToken v)) :
    ∃ t r, ts = t :: r ∧ v = shown t := by
  cases h with
  | next t r => exact ⟨t, r, rfl, rfl⟩
  | other h => cases h

end FoundAt

/-- A relation on token lists that the grammar respects. -/
structure Simulation (stop stop' : Nat) (E : ExprError → ExprError → Prop)
    (L : List Item → List Item → Prop) : Prop where
  front : ∀ {ts us}, L ts us → Front stop stop' E L ts us
  fault : ∀ {ts us fault}, L ts us → FoundAt ts fault →
    E (.malformed fault (position stop ts)) (.malformed fault (position stop' us))

/-- All symbols read related lists of fewer than `n` tokens alike. -/
def AlikeBelow (stop stop' : Nat) (E : ExprError → ExprError → Prop)
    (L : List Item → List Item → Prop) (n : Nat) : Prop :=
  ∀ symbol ts us, L ts us → ts.length < n →
    Alike (SameReading L) E (read stop symbol ts) (read stop' symbol us)

variable {stop stop' n : Nat} {E : ExprError → ExprError → Prop}
  {L : List Item → List Item → Prop} {ts us : List Item}

namespace Simulation

/-- Related lists go on with the same token, or both do not. -/
theorem lead_eq (sim : Simulation stop stop' E L) (h : L ts us) : lead ts = lead us := by
  cases sim.front h with
  | ended ht hu => rw [ht, hu]
  | @step k k' p q r s hk hr =>
      cases hk with
      | literal => rfl
      | same k =>
          rw [lead_eq_some.2 ⟨p, r, rfl⟩, lead_eq_some.2 ⟨q, s, rfl⟩]

/-- Behind the same token the lists are related again. -/
theorem rest (sim : Simulation stop stop' E L) (h : L ts us) {k : TokenKind Empty}
    (hk : lead ts = some k) :
    ∃ p r q s, ts = ⟨k.map Empty.elim, p⟩ :: r ∧ us = ⟨k.map Empty.elim, q⟩ :: s ∧ L r s := by
  obtain ⟨q, s', hs⟩ := lead_eq_some.1 ((sim.lead_eq h).symm.trans hk)
  obtain ⟨p, r', hr⟩ := lead_eq_some.1 hk
  cases sim.front h with
  | ended ht => rw [ht] at hk; cases hk
  | step _ hrs =>
      cases hr
      cases hs
      exact ⟨p, _, q, _, rfl, rfl, hrs⟩

/-- Alike items are joined by the same symbol. -/
theorem joint_eq (sim : Simulation stop stop' E L) (h : L ts us) : joint ts = joint us := by
  rw [joint_eq_lead, joint_eq_lead, sim.lead_eq h]

/-- Alike items begin with the same name. -/
theorem nextName_eq (sim : Simulation stop stop' E L) (h : L ts us) :
    nextName ts = nextName us := by
  rw [nextName_eq_lead, nextName_eq_lead, sim.lead_eq h]

/-- Alike items begin with the same key. -/
theorem nextKey_eq (sim : Simulation stop stop' E L) (h : L ts us) :
    nextKey ts = nextKey us := by
  rw [nextKey_eq_lead, nextKey_eq_lead, sim.lead_eq h]

/-- Behind a name the lists are related again. -/
theorem named (sim : Simulation stop stop' E L) (h : L ts us) {name : Text}
    (hn : nextName ts = some name) :
    ∃ t r u s, ts = t :: r ∧ us = u :: s ∧ nameOf? t = some name ∧ nameOf? u = some name
      ∧ L r s := by
  rw [nextName_eq_lead] at hn
  obtain ⟨k, hk, hname⟩ := Option.bind_eq_some_iff.1 hn
  obtain ⟨p, r, q, s, rfl, rfl, hrs⟩ := sim.rest h hk
  exact ⟨_, r, _, s, rfl, rfl, hname, hname, hrs⟩

/-- Behind a map key the lists are related again. -/
theorem keyed (sim : Simulation stop stop' E L) (h : L ts us) {key : MapKey}
    (hn : nextKey ts = some key) :
    ∃ t r u s, ts = t :: r ∧ us = u :: s ∧ mapKeyOf? t = some key ∧ mapKeyOf? u = some key
      ∧ L r s := by
  rw [nextKey_eq_lead] at hn
  obtain ⟨k, hk, hkey⟩ := Option.bind_eq_some_iff.1 hn
  obtain ⟨p, r, q, s, rfl, rfl, hrs⟩ := sim.rest h hk
  exact ⟨_, r, _, s, rfl, rfl, hkey, hkey, hrs⟩

/-- Both lists are refused for the same reason. -/
theorem fail {S : α → β → Prop} (sim : Simulation stop stop' E L) (h : L ts us)
    {fault : ExprFault} (hf : FoundAt ts fault) :
    Alike S E (fail stop fault ts) (fail stop' fault us) := sim.fault h hf

end Simulation

-- ============================================================== pipes

/-- The arguments of a filter are read alike. -/
theorem alike_pipeArgs (sim : Simulation stop stop' E L) (ih : AlikeBelow stop stop' E L n)
    (h : L ts us) (hlen : ts.length ≤ n) :
    Alike (SameTrailing L) E (pipeArgs stop ts) (pipeArgs stop' us) := by
  induction hk : ts.length using Nat.strongRecOn generalizing ts us with
  | _ m rec =>
      subst hk
      by_cases hc : lead ts = some (.mark .colon)
      · obtain ⟨p, r, q, s, rfl, rfl, hrs⟩ := sim.rest h hc
        simp only [List.length_cons] at hlen rec
        show Alike _ E (pipeArgs stop (⟨.mark .colon, p⟩ :: r))
          (pipeArgs stop' (⟨.mark .colon, q⟩ :: s))
        rw [pipeArgs, pipeArgs]
        refine (ih .cond r s hrs (by omega)).andThen ?_
        intro e r' s' hr' _ hrs'
        refine (rec r'.length (by omega) hrs' (by omega) rfl).afterward ?_
        intro es r'' s'' _ _ hrs''
        exact .ok ⟨rfl, hrs''⟩
      · have hc' : lead us ≠ some (.mark .colon) := sim.lead_eq h ▸ hc
        obtain ⟨_, hx⟩ := pipeArgs_iff.2 (.inl ⟨ne_of_lead_ne hc, rfl, rfl⟩)
        obtain ⟨_, hy⟩ := pipeArgs_iff.2 (.inl ⟨ne_of_lead_ne hc', rfl, rfl⟩)
        rw [hx, hy]
        exact .ok ⟨rfl, h⟩

/-- A bar without a name behind it. -/
theorem pipeTail_unnamed {input : Expr} {p : Nat} {r : List Item} (h : nextName r = none) :
    pipeTail stop input (⟨.operator .bar, p⟩ :: r) = Grammar.fail stop .missingPipeName r := by
  cases r with
  | nil => rw [pipeTail]
  | cons t r =>
      have ht : nameOf? t = none := h
      rw [pipeTail]
      simp only [ht]

/-- The filters of a pipe are read alike. -/
theorem alike_pipeTail (sim : Simulation stop stop' E L) (ih : AlikeBelow stop stop' E L n)
    {input : Expr} (h : L ts us) (hlen : ts.length ≤ n) :
    Alike (SameTrailing L) E (pipeTail stop input ts) (pipeTail stop' input us) := by
  induction hk : ts.length using Nat.strongRecOn generalizing ts us input with
  | _ m rec =>
      subst hk
      by_cases hb : joint ts = some .pipe
      · obtain ⟨p, r, rfl⟩ := joint_eq_pipe.1 hb
        obtain ⟨p, r, q, s, heq, rfl, hrs⟩ := sim.rest h (k := .operator .bar) rfl
        cases heq
        simp only [List.length_cons] at hlen rec
        show Alike _ E (pipeTail stop input (⟨.operator .bar, p⟩ :: r))
          (pipeTail stop' input (⟨.operator .bar, q⟩ :: s))
        cases hn : nextName r with
        | none =>
            rw [pipeTail_unnamed hn, pipeTail_unnamed (sim.nextName_eq hrs ▸ hn)]
            exact sim.fail hrs (.other rfl)
        | some name =>
            obtain ⟨t, r, u, s, rfl, rfl, ht, hu, hrs⟩ := sim.named hrs hn
            simp only [List.length_cons] at hlen rec
            rw [pipeTail, pipeTail]
            simp only [ht, hu]
            refine (alike_pipeArgs sim ih hrs (by omega)).afterward ?_
            intro args r' s' hr' _ hrs'
            refine (rec r'.length (by omega) hrs' (by omega) rfl).afterward ?_
            intro e r'' s'' _ _ hrs''
            exact .ok ⟨rfl, hrs''⟩
      · have hb' : joint us ≠ some .pipe := sim.joint_eq h ▸ hb
        obtain ⟨_, hx⟩ := pipeTail_iff.2 (.inl ⟨hb, rfl, rfl⟩)
        obtain ⟨_, hy⟩ := pipeTail_iff.2 (.inl ⟨hb', rfl, rfl⟩)
        rw [hx, hy]
        exact .ok ⟨rfl, h⟩

/-- The operators of a level are read alike. -/
theorem alike_binaryTail (sim : Simulation stop stop' E L) (ih : AlikeBelow stop stop' E L n)
    {level : Nat} {left : Expr} (h : L ts us) (hlen : ts.length ≤ n) :
    Alike (SameTrailing L) E (binaryTail stop level left ts) (binaryTail stop' level left us) := by
  induction hk : ts.length using Nat.strongRecOn generalizing ts us left with
  | _ m rec =>
      subst hk
      by_cases hb : joint ts = some (.binary (level + 1))
      · obtain ⟨op, p, r, hop, rfl⟩ := joint_eq_binary.1 hb
        obtain ⟨p, r, q, s, heq, rfl, hrs⟩ := sim.rest h (k := .operator (.binary op)) rfl
        cases heq
        simp only [List.length_cons] at hlen rec
        show Alike _ E (binaryTail stop level left (⟨.operator (.binary op), p⟩ :: r))
          (binaryTail stop' level left (⟨.operator (.binary op), q⟩ :: s))
        rw [binaryTail, binaryTail, if_pos hop, if_pos hop]
        refine (ih (.binary level) r s hrs (by omega)).andThen ?_
        intro right r' s' hr' _ hrs'
        refine (rec r'.length (by omega) hrs' (by omega) rfl).afterward ?_
        intro e r'' s'' _ _ hrs''
        exact .ok ⟨rfl, hrs''⟩
      · have hb' : joint us ≠ some (.binary (level + 1)) := sim.joint_eq h ▸ hb
        obtain ⟨_, hx⟩ := binaryTail_iff.2 (.inl ⟨hb, rfl, rfl⟩)
        obtain ⟨_, hy⟩ := binaryTail_iff.2 (.inl ⟨hb', rfl, rfl⟩)
        rw [hx, hy]
        exact .ok ⟨rfl, h⟩

-- ========================================================== sequences

/-- The key of an access is read alike. -/
theorem alike_keyTail (sim : Simulation stop stop' E L) (ih : AlikeBelow stop stop' E L n)
    (h : L ts us) (hlen : ts.length < n) :
    Alike (SameReading L) E (keyTail stop ts) (keyTail stop' us) := by
  rw [keyTail, keyTail]
  refine (ih .pipe ts us h hlen).andThen ?_
  intro key r s hr hs hrs
  by_cases hc : lead r = some (.mark .closeBracket)
  · obtain ⟨p, r', q, s', rfl, rfl, hrs'⟩ := sim.rest hrs hc
    exact .ok ⟨rfl, hrs'⟩
  · have hc' : lead s ≠ some (.mark .closeBracket) := sim.lead_eq hrs ▸ hc
    dsimp only
    split
    · exact absurd rfl (ne_of_lead_ne hc _ _)
    · split
      · exact absurd rfl (ne_of_lead_ne hc' _ _)
      · exact sim.fail hrs (.other rfl)

/-- The items of a sequence are read alike. -/
theorem alike_items (sim : Simulation stop stop' E L) (ih : AlikeBelow stop stop' E L n)
    {closer : Mark} (h : L ts us) (hlen : ts.length < n) :
    Alike (SameReading L) E (items stop closer ts) (items stop' closer us) := by
  induction hk : ts.length using Nat.strongRecOn generalizing ts us with
  | _ m rec =>
      subst hk
      rw [items, items]
      refine (ih .pipe ts us h hlen).andThen ?_
      intro e r s hr hs hrs
      by_cases hm : ∃ mark, lead r = some (.mark mark)
      · obtain ⟨mark, hm⟩ := hm
        obtain ⟨p, r, q, s, rfl, rfl, hrs'⟩ := sim.rest hrs hm
        simp only [List.length_cons] at hr
        show Alike _ E (if mark = .comma then _ else if mark = closer then _ else _)
          (if mark = .comma then _ else if mark = closer then _ else _)
        by_cases hcomma : mark = .comma
        · rw [if_pos hcomma, if_pos hcomma]
          refine (rec r.length (by omega) hrs' (by omega) rfl).andThen ?_
          intro es r'' s'' _ _ hrs''
          exact .ok ⟨rfl, hrs''⟩
        · rw [if_neg hcomma, if_neg hcomma]
          by_cases hclose : mark = closer
          · rw [if_pos hclose, if_pos hclose]
            exact .ok ⟨rfl, hrs'⟩
          · rw [if_neg hclose, if_neg hclose]
            exact sim.fail hrs (.other rfl)
      · have hm' : ¬ ∃ mark, lead s = some (.mark mark) := sim.lead_eq hrs ▸ hm
        dsimp only
        split
        · exact absurd ⟨_, rfl⟩ hm
        · split
          · exact absurd ⟨_, rfl⟩ hm'
          · exact sim.fail hrs (.other rfl)

/-- A sequence that does not end at once has items. -/
theorem sequence_eq_items {closer : Mark} (h : ∀ p r, ts ≠ ⟨.mark closer, p⟩ :: r) :
    sequence stop closer ts = items stop closer ts := by
  unfold sequence
  split
  · next m p r => rw [if_neg fun hm => h p r (by rw [hm])]
  · rfl

/-- A sequence is read alike. -/
theorem alike_sequence (sim : Simulation stop stop' E L) (ih : AlikeBelow stop stop' E L n)
    {closer : Mark} (h : L ts us) (hlen : ts.length < n) :
    Alike (SameReading L) E (sequence stop closer ts) (sequence stop' closer us) := by
  by_cases hc : lead ts = some (.mark closer)
  · obtain ⟨p, r, q, s, rfl, rfl, hrs⟩ := sim.rest h hc
    show Alike _ E (sequence stop closer (⟨.mark closer, p⟩ :: r))
      (sequence stop' closer (⟨.mark closer, q⟩ :: s))
    rw [sequence, sequence, if_pos rfl, if_pos rfl]
    exact .ok ⟨rfl, hrs⟩
  · have hc' : lead us ≠ some (.mark closer) := sim.lead_eq h ▸ hc
    rw [sequence_eq_items (ne_of_lead_ne hc), sequence_eq_items (ne_of_lead_ne hc')]
    exact alike_items sim ih h hlen

-- =============================================================== maps

/-- The value of an entry is read alike. -/
theorem alike_entryValue (sim : Simulation stop stop' E L) (ih : AlikeBelow stop stop' E L n)
    {key : MapKey} (h : L ts us) (hlen : ts.length ≤ n) :
    Alike (SameTrailing L) E (entryValue stop key ts) (entryValue stop' key us) := by
  by_cases hc : lead ts = some (.mark .colon)
  · obtain ⟨p, r, q, s, rfl, rfl, hrs⟩ := sim.rest h hc
    simp only [List.length_cons] at hlen
    show Alike _ E (entryValue stop key (⟨.mark .colon, p⟩ :: r))
      (entryValue stop' key (⟨.mark .colon, q⟩ :: s))
    rw [entryValue, entryValue]
    refine (ih .pipe r s hrs (by omega)).andThen ?_
    intro e r' s' _ _ hrs'
    exact .ok ⟨rfl, hrs'⟩
  · have hc' : lead us ≠ some (.mark .colon) := sim.lead_eq h ▸ hc
    rw [entryValue, entryValue]
    · by_cases hq : key.quoted = true
      · rw [if_pos hq, if_pos hq]
        exact sim.fail h (.other rfl)
      · rw [if_neg hq, if_neg hq]
        exact .ok ⟨rfl, h⟩
    · exact ne_of_lead_ne hc'
    · exact ne_of_lead_ne hc

/-- Entries without a key are refused there. -/
theorem entries_unkeyed (h : nextKey ts = none) :
    entries stop ts = Grammar.fail stop .missingMapKey ts := by
  cases ts with
  | nil => rw [entries]
  | cons t r =>
      have ht : mapKeyOf? t = none := h
      rw [entries]
      simp only [ht]

/-- The entries of a map are read alike. -/
theorem alike_entries (sim : Simulation stop stop' E L) (ih : AlikeBelow stop stop' E L n)
    (h : L ts us) (hlen : ts.length ≤ n) :
    Alike (SameReading L) E (entries stop ts) (entries stop' us) := by
  induction hk : ts.length using Nat.strongRecOn generalizing ts us with
  | _ m rec =>
      subst hk
      cases hn : nextKey ts with
      | none =>
          rw [entries_unkeyed hn, entries_unkeyed (sim.nextKey_eq h ▸ hn)]
          exact sim.fail h (.other rfl)
      | some key =>
          obtain ⟨t, r, u, s, rfl, rfl, ht, hu, hrs⟩ := sim.keyed h hn
          simp only [List.length_cons] at hlen rec
          rw [entries, entries]
          simp only [ht, hu]
          refine (alike_entryValue sim ih hrs (by omega)).afterward ?_
          intro value r s hr hs hrs
          by_cases hcomma : lead r = some (.mark .comma)
          · obtain ⟨p, r', q, s', rfl, rfl, hrs'⟩ := sim.rest hrs hcomma
            simp only [List.length_cons] at hr
            refine (rec r'.length (by omega) hrs' (by omega) rfl).andThen ?_
            intro more r'' s'' _ _ hrs''
            exact .ok ⟨rfl, hrs''⟩
          · have hcomma' : lead s ≠ some (.mark .comma) := sim.lead_eq hrs ▸ hcomma
            by_cases hclose : lead r = some (.mark .closeBrace)
            · obtain ⟨p, r', q, s', rfl, rfl, hrs'⟩ := sim.rest hrs hclose
              exact .ok ⟨rfl, hrs'⟩
            · have hclose' : lead s ≠ some (.mark .closeBrace) := sim.lead_eq hrs ▸ hclose
              dsimp only
              split
              · exact absurd rfl (ne_of_lead_ne hcomma _ _)
              · exact absurd rfl (ne_of_lead_ne hclose _ _)
              · split
                · exact absurd rfl (ne_of_lead_ne hcomma' _ _)
                · exact absurd rfl (ne_of_lead_ne hclose' _ _)
                · exact sim.fail hrs (.other rfl)

/-- The body of a map is read alike. -/
theorem alike_mapBody (sim : Simulation stop stop' E L) (ih : AlikeBelow stop stop' E L n)
    (h : L ts us) (hlen : ts.length ≤ n) :
    Alike (SameReading L) E (mapBody stop ts) (mapBody stop' us) := by
  by_cases hc : lead ts = some (.mark .closeBrace)
  · obtain ⟨p, r, q, s, rfl, rfl, hrs⟩ := sim.rest h hc
    show Alike _ E (mapBody stop (⟨.mark .closeBrace, p⟩ :: r))
      (mapBody stop' (⟨.mark .closeBrace, q⟩ :: s))
    rw [mapBody, mapBody]
    exact .ok ⟨rfl, hrs⟩
  · have hc' : lead us ≠ some (.mark .closeBrace) := sim.lead_eq h ▸ hc
    rw [mapBody, mapBody]
    · exact alike_entries sim ih h hlen
    · exact ne_of_lead_ne hc'
    · exact ne_of_lead_ne hc

-- ============================================================= access

/-- An access without a name behind its point is refused there. -/
theorem accessTail_unnamed {receiver : Expr} {p : Nat} {r : List Item} (h : nextName r = none) :
    accessTail stop receiver (⟨.mark .dot, p⟩ :: r)
      = Grammar.fail stop .missingPropertyName r := by
  cases r with
  | nil => rw [accessTail]
  | cons t r =>
      have ht : nameOf? t = none := h
      rw [accessTail]
      simp only [ht]

/-- A safe access to nothing. -/
theorem accessTail_safe_unnamed {receiver : Expr} {p : Nat} {r : List Item}
    (hb : lead r ≠ some (.mark .openBracket)) (hp : lead r ≠ some (.mark .openParen))
    (h : nextName r = none) :
    accessTail stop receiver (⟨.operator .optional, p⟩ :: r)
      = Grammar.fail stop .missingSafePropertyName r := by
  cases r with
  | nil => rw [accessTail]
  | cons t r =>
      have ht : nameOf? t = none := h
      rw [accessTail]
      · simp only [ht]
      · rintro q rfl
        exact hb rfl
      · rintro q rfl
        exact hp rfl

/-- An optional access with a name goes on behind the name. -/
theorem accessTail_safe_named {receiver : Expr} {p : Nat} {t : Item} {r : List Item}
    {name : Text} (h : nameOf? t = some name) :
    accessTail stop receiver (⟨.operator .optional, p⟩ :: t :: r)
      = accessTail stop (.safeProperty receiver name) r >>= fun x =>
        .ok ⟨x.value, x.rest, by have := x.noLonger; simp only [List.length_cons]; omega⟩ := by
  rw [accessTail]
  · simp only [h]
    rfl
  · rintro q rfl
    cases h
  · rintro q rfl
    cases h

/-- A safe index, call or property, when what follows it is read alike. -/
theorem alike_accessTail_safe (sim : Simulation stop stop' E L)
    (ih : AlikeBelow stop stop' E L n) {receiver : Expr} {p q : Nat} {r s : List Item}
    (h : L r s) (hlen : r.length < n)
    (rec : ∀ e r' s', L r' s' → r'.length ≤ r.length →
      Alike (SameTrailing L) E (accessTail stop e r') (accessTail stop' e s')) :
    Alike (SameTrailing L) E (accessTail stop receiver (⟨.operator .optional, p⟩ :: r))
      (accessTail stop' receiver (⟨.operator .optional, q⟩ :: s)) := by
  by_cases hb : lead r = some (.mark .openBracket)
  · obtain ⟨p', r', q', s', rfl, rfl, hrs⟩ := sim.rest h hb
    simp only [List.length_cons] at hlen rec
    show Alike _ E (accessTail stop receiver (_ :: ⟨.mark .openBracket, p'⟩ :: r'))
      (accessTail stop' receiver (_ :: ⟨.mark .openBracket, q'⟩ :: s'))
    rw [accessTail, accessTail]
    refine (alike_keyTail sim ih hrs (by omega)).andThen ?_
    intro key u v hu _ huv
    refine (rec _ u v huv (by omega)).afterward ?_
    intro e u' v' _ _ huv'
    exact .ok ⟨rfl, huv'⟩
  by_cases hp : lead r = some (.mark .openParen)
  · obtain ⟨p', r', q', s', rfl, rfl, hrs⟩ := sim.rest h hp
    simp only [List.length_cons] at hlen rec
    show Alike _ E (accessTail stop receiver (_ :: ⟨.mark .openParen, p'⟩ :: r'))
      (accessTail stop' receiver (_ :: ⟨.mark .openParen, q'⟩ :: s'))
    rw [accessTail, accessTail]
    refine (alike_sequence sim ih hrs (by omega)).andThen ?_
    intro args u v hu _ huv
    refine (rec _ u v huv (by omega)).afterward ?_
    intro e u' v' _ _ huv'
    exact .ok ⟨rfl, huv'⟩
  have hb' : lead s ≠ some (.mark .openBracket) := sim.lead_eq h ▸ hb
  have hp' : lead s ≠ some (.mark .openParen) := sim.lead_eq h ▸ hp
  cases hn : nextName r with
  | none =>
      rw [accessTail_safe_unnamed hb hp hn,
        accessTail_safe_unnamed hb' hp' (sim.nextName_eq h ▸ hn)]
      exact sim.fail h (.other rfl)
  | some name =>
      obtain ⟨t, r', u, s', rfl, rfl, ht, hu, hrs⟩ := sim.named h hn
      simp only [List.length_cons] at rec
      rw [accessTail_safe_named ht, accessTail_safe_named hu]
      refine (rec _ r' s' hrs (by omega)).afterward ?_
      intro e u' v' _ _ huv'
      exact .ok ⟨rfl, huv'⟩

/-- The parts of an access are read alike. -/
theorem alike_accessTail (sim : Simulation stop stop' E L) (ih : AlikeBelow stop stop' E L n)
    {receiver : Expr} (h : L ts us) (hlen : ts.length ≤ n) :
    Alike (SameTrailing L) E (accessTail stop receiver ts) (accessTail stop' receiver us) := by
  induction hk : ts.length using Nat.strongRecOn generalizing ts us receiver with
  | _ m rec =>
      subst hk
      by_cases hj : joint ts = some .access
      · obtain ⟨k, p, r, hk, rfl⟩ := exists_joins_of_joint hj
        rcases joins_eq_some hk with
          ⟨-, rfl | rfl | rfl | rfl | rfl⟩ | ⟨op, hs, -⟩ | ⟨hs, -⟩ | ⟨hs, -⟩
        · -- a property
          obtain ⟨p, r, q, s, heq, rfl, hrs⟩ := sim.rest h (k := .mark .dot) rfl
          cases heq
          show Alike _ E (accessTail stop receiver (⟨.mark .dot, p⟩ :: r))
            (accessTail stop' receiver (⟨.mark .dot, q⟩ :: s))
          cases hn : nextName r with
          | none =>
              rw [accessTail_unnamed hn, accessTail_unnamed (sim.nextName_eq hrs ▸ hn)]
              exact sim.fail hrs (.other rfl)
          | some name =>
              obtain ⟨t, r, u, s, rfl, rfl, ht, hu, hrs⟩ := sim.named hrs hn
              simp only [List.length_cons] at hlen rec
              rw [accessTail, accessTail]
              simp only [ht, hu]
              refine (rec r.length (by omega) hrs (by omega) rfl).afterward ?_
              intro e r' s' _ _ hrs'
              exact .ok ⟨rfl, hrs'⟩
        · -- an index
          obtain ⟨p, r, q, s, heq, rfl, hrs⟩ := sim.rest h (k := .mark .openBracket) rfl
          cases heq
          simp only [List.length_cons] at hlen rec
          show Alike _ E (accessTail stop receiver (⟨.mark .openBracket, p⟩ :: r))
            (accessTail stop' receiver (⟨.mark .openBracket, q⟩ :: s))
          rw [accessTail, accessTail]
          refine (alike_keyTail sim ih hrs (by omega)).andThen ?_
          intro key r' s' hr' _ hrs'
          refine (rec r'.length (by omega) hrs' (by omega) rfl).afterward ?_
          intro e r'' s'' _ _ hrs''
          exact .ok ⟨rfl, hrs''⟩
        · -- a call
          obtain ⟨p, r, q, s, heq, rfl, hrs⟩ := sim.rest h (k := .mark .openParen) rfl
          cases heq
          simp only [List.length_cons] at hlen rec
          show Alike _ E (accessTail stop receiver (⟨.mark .openParen, p⟩ :: r))
            (accessTail stop' receiver (⟨.mark .openParen, q⟩ :: s))
          rw [accessTail, accessTail]
          refine (alike_sequence sim ih hrs (by omega)).andThen ?_
          intro args r' s' hr' _ hrs'
          refine (rec r'.length (by omega) hrs' (by omega) rfl).afterward ?_
          intro e r'' s'' _ _ hrs''
          exact .ok ⟨rfl, hrs''⟩
        · -- a question mark with a dot
          obtain ⟨p, r, q, s, heq, rfl, hrs⟩ := sim.rest h (k := .operator .optional) rfl
          cases heq
          simp only [List.length_cons] at hlen rec
          exact alike_accessTail_safe sim ih hrs (by omega) fun e r' s' hrs' hr' =>
            rec r'.length (by omega) hrs' (by omega) rfl
        · -- an assertion
          obtain ⟨p, r, q, s, heq, rfl, hrs⟩ := sim.rest h (k := .operator .bang) rfl
          cases heq
          simp only [List.length_cons] at hlen rec
          show Alike _ E (accessTail stop receiver (⟨.operator .bang, p⟩ :: r))
            (accessTail stop' receiver (⟨.operator .bang, q⟩ :: s))
          rw [accessTail, accessTail]
          refine (rec r.length (by omega) hrs (by omega) rfl).afterward ?_
          intro e r' s' _ _ hrs'
          exact .ok ⟨rfl, hrs'⟩
        · cases hs
        · cases hs
        · cases hs
      · -- both sides stop, as what stands in front of them is alike
        have hj' : joint us ≠ some .access := sim.joint_eq h ▸ hj
        obtain ⟨_, hx⟩ := accessTail_iff.2 (.inl ⟨hj, rfl, rfl⟩)
        obtain ⟨_, hy⟩ := accessTail_iff.2 (.inl ⟨hj', rfl, rfl⟩)
        rw [hx, hy]
        exact .ok ⟨rfl, h⟩

-- =========================================================== operands

/-- A primary is read alike, when all that is shorter is. -/
theorem alike_primary (sim : Simulation stop stop' E L)
    (ih : AlikeBelow stop stop' E L ts.length) (h : L ts us) :
    Alike (SameReading L) E (primary stop ts) (primary stop' us) := by
  cases sim.front h with
  | ended _ _ hts hus he =>
      rw [hts, hus]
      exact he
  | @step k k' p q r s hk hrs =>
      have hlen : r.length < (⟨k, p⟩ :: r : List Item).length := Nat.lt_succ_self _
      cases hk with
      | literal ho =>
          rw [primary, primary]
          exact ho.bind fun a b hab => .ok ⟨hab, hrs⟩
      | same k =>
          cases k with
          | keyword word =>
              cases word
              all_goals
                show Alike _ E (primary stop (⟨.keyword _, p⟩ :: r))
                  (primary stop' (⟨.keyword _, q⟩ :: s))
                rw [primary, primary]
                first | exact .ok ⟨rfl, hrs⟩ | exact sim.fail h (.other rfl)
          | name m =>
              show Alike _ E (primary stop (⟨.name m, p⟩ :: r)) (primary stop' (⟨.name m, q⟩ :: s))
              rw [primary, primary]
              exact .ok ⟨rfl, hrs⟩
          | text value =>
              show Alike _ E (primary stop (⟨.text value, p⟩ :: r))
                (primary stop' (⟨.text value, q⟩ :: s))
              rw [primary, primary]
              exact .ok ⟨rfl, hrs⟩
          | number value =>
              show Alike _ E (primary stop (⟨.number value, p⟩ :: r))
                (primary stop' (⟨.number value, q⟩ :: s))
              rw [primary, primary]
              exact .ok ⟨rfl, hrs⟩
          | template b => exact b.elim
          | operator op =>
              show Alike _ E (primary stop (⟨.operator op, p⟩ :: r))
                (primary stop' (⟨.operator op, q⟩ :: s))
              rw [primary, primary]
              exact sim.fail h (.next _ _)
          | mark m =>
              show Alike _ E (primary stop (⟨.mark m, p⟩ :: r)) (primary stop' (⟨.mark m, q⟩ :: s))
              cases m with
              | openParen =>
                  rw [primary, primary]
                  refine (ih .pipe r s hrs hlen).andThen ?_
                  intro e u v hu hv huv
                  by_cases hc : lead u = some (.mark .closeParen)
                  · obtain ⟨_, u', _, v', rfl, rfl, huv'⟩ := sim.rest huv hc
                    exact .ok ⟨rfl, huv'⟩
                  · have hc' : lead v ≠ some (.mark .closeParen) := sim.lead_eq huv ▸ hc
                    dsimp only
                    split
                    · exact absurd rfl (ne_of_lead_ne hc _ _)
                    · split
                      · exact absurd rfl (ne_of_lead_ne hc' _ _)
                      · exact sim.fail huv (.other rfl)
              | openBracket =>
                  rw [primary, primary]
                  refine (alike_sequence sim ih hrs hlen).andThen ?_
                  intro items u v _ _ huv
                  exact .ok ⟨rfl, huv⟩
              | openBrace =>
                  rw [primary, primary]
                  refine (alike_mapBody sim ih hrs (Nat.le_of_lt hlen)).andThen ?_
                  intro entries u v _ _ huv
                  exact .ok ⟨rfl, huv⟩
              | _ =>
                  rw [primary, primary]
                  exact sim.fail h (.next _ _)

/-- An access is read alike, when all that is shorter is. -/
theorem alike_access (sim : Simulation stop stop' E L)
    (ih : AlikeBelow stop stop' E L ts.length) (h : L ts us) :
    Alike (SameReading L) E (access stop ts) (access stop' us) := by
  rw [access, access]
  refine (alike_primary sim ih h).andThen ?_
  intro receiver r s hr _ hrs
  refine (alike_accessTail sim ih hrs (Nat.le_of_lt hr)).afterward ?_
  intro e u v _ _ huv
  exact .ok ⟨rfl, huv⟩

/-- An operator in front of an operand. -/
theorem unary_of_prefixed {t : Item} {r : List Item} {make : Expr → Expr}
    (h : prefixed t.kind = some make) :
    unary stop (t :: r) = unary stop r >>= fun x =>
      .ok ⟨make x.value, x.rest, Nat.lt_succ_of_lt x.shorter⟩ := by
  obtain ⟨k, p⟩ := t
  simp only at h
  unfold prefixed at h
  split at h
  case h_6 => cases h
  all_goals
    cases h
    rw [unary]
    rfl

/-- Without a sign a unary is an access. -/
theorem unary_of_nextPrefix (h : nextPrefix ts = none) : unary stop ts = access stop ts := by
  rw [unary]
  all_goals
    rintro p r rfl
    cases h

/-- A unary is read alike, when all that is shorter is. -/
theorem alike_unary (sim : Simulation stop stop' E L)
    (ih : AlikeBelow stop stop' E L ts.length) (h : L ts us) :
    Alike (SameReading L) E (unary stop ts) (unary stop' us) := by
  cases hn : nextPrefix ts with
  | none =>
      have hn' : nextPrefix us = none := by
        rw [nextPrefix_eq_lead, ← sim.lead_eq h, ← nextPrefix_eq_lead, hn]
      rw [unary_of_nextPrefix hn, unary_of_nextPrefix hn']
      exact alike_access sim ih h
  | some make =>
      have hn' : nextPrefix us = some make := by
        rw [nextPrefix_eq_lead, ← sim.lead_eq h, ← nextPrefix_eq_lead, hn]
      rw [nextPrefix_eq_lead] at hn
      obtain ⟨k, hk, -⟩ := Option.bind_eq_some_iff.1 hn
      rw [← nextPrefix_eq_lead] at hn
      obtain ⟨p, r, q, s, rfl, rfl, hrs⟩ := sim.rest h hk
      rw [unary_of_prefixed hn, unary_of_prefixed hn']
      refine (ih .unary r s hrs (Nat.lt_succ_self _)).andThen ?_
      intro e u v _ _ huv
      exact .ok ⟨rfl, huv⟩

/-- A power is read alike, when all that is shorter is. -/
theorem alike_power (sim : Simulation stop stop' E L)
    (ih : AlikeBelow stop stop' E L ts.length) (h : L ts us) :
    Alike (SameReading L) E (power stop ts) (power stop' us) := by
  rw [power, power]
  refine (alike_unary sim ih h).andThen ?_
  intro base r s hr hs hrs
  by_cases hp : lead r = some (.operator (.binary .pow))
  · obtain ⟨p, r', q, s', rfl, rfl, hrs'⟩ := sim.rest hrs hp
    have hpower := ih (.binary 0) r' s' hrs' (Nat.lt_of_succ_lt hr)
    simp only [read, binary_zero] at hpower
    refine hpower.andThen ?_
    intro exponent u v _ _ huv
    exact .ok ⟨rfl, huv⟩
  · have hp' : lead s ≠ some (.operator (.binary .pow)) := sim.lead_eq hrs ▸ hp
    dsimp only
    split
    · exact absurd rfl (ne_of_lead_ne hp _ _)
    · split
      · exact absurd rfl (ne_of_lead_ne hp' _ _)
      · exact .ok ⟨rfl, hrs⟩

/-- A level of operators is read alike, when all that is shorter is. -/
theorem alike_binary (sim : Simulation stop stop' E L)
    (ih : AlikeBelow stop stop' E L ts.length) (level : Nat) (h : L ts us) :
    Alike (SameReading L) E (binary stop level ts) (binary stop' level us) := by
  induction level with
  | zero =>
      rw [binary_zero, binary_zero]
      exact alike_power sim ih h
  | succ level rec =>
      rw [binary, binary]
      refine rec.andThen ?_
      intro left r s hr _ hrs
      refine (alike_binaryTail sim ih hrs (Nat.le_of_lt hr)).afterward ?_
      intro e u v _ _ huv
      exact .ok ⟨rfl, huv⟩

/-- A choice is read alike, when all that is shorter is. -/
theorem alike_cond (sim : Simulation stop stop' E L)
    (ih : AlikeBelow stop stop' E L ts.length) (h : L ts us) :
    Alike (SameReading L) E (cond stop ts) (cond stop' us) := by
  rw [cond, cond]
  refine (alike_binary sim ih BinaryOp.loosest h).andThen ?_
  intro test r s hr hs hrs
  by_cases hq : lead r = some (.operator .question)
  · obtain ⟨p, r', q, s', rfl, rfl, hrs'⟩ := sim.rest hrs hq
    have hr' : r'.length < ts.length := Nat.lt_of_succ_lt hr
    refine (ih .pipe r' s' hrs' hr').andThen ?_
    intro yes u v hu hv huv
    by_cases hc : lead u = some (.mark .colon)
    · obtain ⟨_, u', _, v', rfl, rfl, huv'⟩ := sim.rest huv hc
      have hu' : u'.length < r'.length := Nat.lt_of_succ_lt hu
      refine (ih .pipe u' v' huv' (Nat.lt_trans hu' hr')).andThen ?_
      intro no w x _ _ hwx
      exact .ok ⟨rfl, hwx⟩
    · have hc' : lead v ≠ some (.mark .colon) := sim.lead_eq huv ▸ hc
      dsimp only
      split
      · exact absurd rfl (ne_of_lead_ne hc _ _)
      · split
        · exact absurd rfl (ne_of_lead_ne hc' _ _)
        · exact sim.fail huv (.other rfl)
  · have hq' : lead s ≠ some (.operator .question) := sim.lead_eq hrs ▸ hq
    dsimp only
    split
    · exact absurd rfl (ne_of_lead_ne hq _ _)
    · split
      · exact absurd rfl (ne_of_lead_ne hq' _ _)
      · exact .ok ⟨rfl, hrs⟩

/-- A pipe is read alike, when all that is shorter is. -/
theorem alike_pipe (sim : Simulation stop stop' E L)
    (ih : AlikeBelow stop stop' E L ts.length) (h : L ts us) :
    Alike (SameReading L) E (pipe stop ts) (pipe stop' us) := by
  rw [pipe, pipe]
  refine (alike_cond sim ih h).andThen ?_
  intro input r s hr _ hrs
  refine (alike_pipeTail sim ih hrs (Nat.le_of_lt hr)).afterward ?_
  intro e u v _ _ huv
  exact .ok ⟨rfl, huv⟩

/-- Every symbol reads related lists alike. -/
theorem alike_read (sim : Simulation stop stop' E L) (symbol : Symbol) (h : L ts us) :
    Alike (SameReading L) E (read stop symbol ts) (read stop' symbol us) := by
  suffices hall : ∀ n, AlikeBelow stop stop' E L n from
    hall (ts.length + 1) symbol ts us h (Nat.lt_succ_self _)
  intro n
  induction n with
  | zero =>
      intro symbol ts us h hlen
      exact absurd hlen (Nat.not_lt_zero _)
  | succ n ih =>
      intro symbol ts us h hlen
      have ih : AlikeBelow stop stop' E L ts.length := fun symbol ts' us' h' hlen' =>
        ih symbol ts' us' h' (Nat.lt_of_lt_of_le hlen' (Nat.le_of_lt_succ hlen))
      cases symbol with
      | primary => exact alike_primary sim ih h
      | access => exact alike_access sim ih h
      | unary => exact alike_unary sim ih h
      | binary level => exact alike_binary sim ih level h
      | cond => exact alike_cond sim ih h
      | pipe => exact alike_pipe sim ih h

end KeyHarvest.Grammar
