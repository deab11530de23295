/-
What the rules do with the desk. A rule looks at no slot but those of its
text, never moves back, and goes past a token only where there is one; when
it asks for another rule, it has gone on or the other rule stands lower in
the grammar, and a text of its own is shorter than the one around it
(`Plan.Sound`). This is one case for each rule (`sound_plan`).

A rule may count on what has been seen before it. Primary expressions are
asked for only where neither `typeof` nor `void` comes next, since both
have been taken for operators, and the literal of a backtick body only
right behind the token that it is the body of (`Rule.Ready`).
-/
import KeyHarvest.Proofs.Expr.Desk
import KeyHarvest.Proofs.Expr.Plan

namespace KeyHarvest

-- =============================================================== desks

/-- The slots of a text: its tokens, and the end behind them. -/
def slotsOf (t : Text) (ts : List (Token Text)) : List Slot :=
  ts.map (fun u => ⟨some u.kind, u.position⟩) ++ [⟨none, t.length⟩]

namespace Desk

/-- A desk on which a text is read. The next slot is one of the text. -/
structure Reads (t : Text) (d : Desk) : Prop where
  slots : ∃ ts, tokenize 0 t = .ok ts ∧ d.slots = slotsOf t ts
  inside : d.next < d.slots.length

/-- The second desk is the first one, further on or at the same place. -/
structure Leads (d d' : Desk) : Prop where
  slots : d'.slots = d.slots
  offset : d'.offset = d.offset
  next : d.next ≤ d'.next

variable {t : Text} {d d' d'' : Desk}

theorem Leads.refl (d : Desk) : d.Leads d := ⟨rfl, rfl, Nat.le_refl _⟩

/-- Desks that lead on from each other lead on from first to last. -/
theorem Leads.trans (h : d.Leads d') (h' : d'.Leads d'') : d.Leads d'' :=
  ⟨h'.slots.trans h.slots, h'.offset.trans h.offset, Nat.le_trans h.next h'.next⟩

/-- On the desk of a text the slot that is looked at is one of the text. -/
theorem Reads.getElem?_next (h : d.Reads t) : d.slots[d.next]? = some d.current := by
  have hget := List.getElem?_eq_getElem h.inside
  rw [current, List.getD_eq_getElem?_getD, hget]
  rfl

/-- Behind a token there is another slot. -/
theorem Reads.succ_lt (h : d.Reads t) (hsome : d.current.kind ≠ none) :
    d.next + 1 < d.slots.length := by
  obtain ⟨ts, -, hslots⟩ := h.slots
  have hget := h.getElem?_next
  have hinside := h.inside
  rw [hslots, slotsOf, List.length_append, List.length_map, List.length_singleton] at hinside ⊢
  by_contra hend
  refine hsome ?_
  have hlast : d.next = (ts.map fun u => (⟨some u.kind, u.position⟩ : Slot)).length := by
    rw [List.length_map]
    omega
  rw [hslots, slotsOf, hlast, List.getElem?_concat_length] at hget
  rw [← Option.some.inj hget]

/-- A step in front of a token passes it. -/
theorem step_of_ne_none (hsome : d.current.kind ≠ none) : d.step = { d with next := d.next + 1 } :=
  if_pos (Option.isSome_iff_ne_none.2 hsome)

/-- A step in front of a token stays in the text. -/
theorem Reads.step (h : d.Reads t) (hsome : d.current.kind ≠ none) : d.step.Reads t := by
  rw [step_of_ne_none hsome]
  exact ⟨h.slots, h.succ_lt hsome⟩

/-- A step leads on. -/
theorem leads_step (d : Desk) : d.Leads d.step := by
  unfold Desk.step
  split
  · exact ⟨rfl, rfl, Nat.le_succ _⟩
  · exact Leads.refl d

/-- A step in front of a token moves by one. -/
theorem next_step (hsome : d.current.kind ≠ none) : d.step.next = d.next + 1 := by
  rw [step_of_ne_none hsome]

/-- A backtick body among the slots of a text is shorter than the text. -/
theorem Reads.template_length_lt (h : d.Reads t) {raw : Text} {p : Nat}
    (hmem : ⟨some (.template raw), p⟩ ∈ d.slots) : raw.length < t.length := by
  obtain ⟨ts, hts, hslots⟩ := h.slots
  rw [hslots, slotsOf, List.mem_append] at hmem
  rcases hmem with hmem | hmem
  · obtain ⟨⟨k, q⟩, hu, heq⟩ := List.mem_map.1 hmem
    cases heq
    exact KeyHarvest.template_length_lt hts hu
  · rw [List.mem_singleton] at hmem
    cases hmem

end Desk

-- ============================================================ measures

/-- The faults that can arise. The one that is left out speaks of a reserved
word that stands for no operand. -/
def ExprFault.Foreseen : ExprFault → Prop
  | .unexpectedKeyword _ => False
  | _ => True

/-- The refusals that can arise. -/
def ExprError.Foreseen : ExprError → Prop
  | .malformed fault _ => fault.Foreseen
  | .oversized _ => True

namespace Rule

/-- The rules that give a value only behind a token that they have passed.
The others go on with what has been read, or with a text of its own. -/
def Consumes : {α : Type} → Rule α → Prop
  | _, pipe | _, cond | _, binary _ | _, power | _, unary | _, access | _, keyTail | _, primary
  | _, sequence _ | _, items _ _ | _, mapBody | _, entries _ _ => True
  | _, pipeTail _ | _, pipeArgs _ | _, binaryTail _ _ | _, accessTail _ | _, entryValue _
  | _, template _ _ | _, substitutions _ _ | _, whole | _, standalone _ _ => False

/-- The level of a rule in the grammar: where a rule asks for another one
before it has passed a token, the other one is lower. -/
def level : {α : Type} → Rule α → Nat
  | _, primary | _, pipeTail _ | _, pipeArgs _ | _, binaryTail _ _ | _, accessTail _
  | _, entries _ _ | _, entryValue _ | _, standalone _ _ => 0
  | _, access | _, mapBody => 1
  | _, unary => 2
  | _, power => 3
  | _, binary level => 4 + level
  | _, cond => 5 + BinaryOp.loosest
  | _, pipe => 6 + BinaryOp.loosest
  | _, keyTail | _, items _ _ | _, whole => 7 + BinaryOp.loosest
  | _, sequence _ => 8 + BinaryOp.loosest
  | _, substitutions _ parts => 1 + parts.length
  | _, template raw _ => 2 + (BacktickBody.split 0 raw).parts.length

/-- What a rule may count on when it is asked for. -/
def Ready (t : Text) (d : Desk) : {α : Type} → Rule α → Prop
  | _, access | _, primary =>
      d.current.kind ≠ some (.keyword .typeof) ∧ d.current.kind ≠ some (.keyword .void)
  | _, template raw _ => ∃ n p, d.next = n + 1 ∧ d.slots[n]? = some ⟨some (.template raw), p⟩
  | _, substitutions _ parts => ∀ part ∈ parts, part.code.length < t.length
  | _, standalone code _ => code.length < t.length
  | _, _ => True

end Rule

-- ============================================================ soundness

namespace Plan

variable {α β : Type} {t : Text} {r : Rule α} {start d : Desk}

/-- A plan of a rule that was asked for at `start` and has come to the desk
`d` of the text `t`. -/
def Sound (t : Text) (r : Rule α) (start : Desk) : Plan α → Desk → Prop
  | give _, d => r.Consumes → start.next < d.next
  | fail e, _ => e.Foreseen
  | look k, d => (k d).Sound t r start d
  | advance k, d => d.current.kind ≠ none ∧ k.Sound t r start d.step
  | ask r' k, d =>
      r'.Ready t d ∧ (start.next < d.next ∨ r'.level < r.level)
        ∧ ∀ a d', d'.Reads t → d.Leads d' → (r'.Consumes → d.next < d'.next) →
          (k a).Sound t r start d'
  | text code _ k, d => code.length < t.length ∧ ∀ e, (k e).Sound t r start d

/-- A plan may ask for a rule that is ready and is lower, or behind the
start, when it is sound for every answer and every desk that the rule may
leave. -/
theorem sound_of {r' : Rule β} {k : β → Plan α} (hready : r'.Ready t d)
    (hlower : start.next < d.next ∨ r'.level < r.level)
    (hk : ∀ a d', d'.Reads t → d.Leads d' → (r'.Consumes → d.next < d'.next) →
      (k a).Sound t r start d') :
    (of r' >>= k).Sound t r start d :=
  ⟨hready, hlower, hk⟩

/-- The rule that is asked for last gives the value. -/
theorem sound_last {r' : Rule α} (hready : r'.Ready t d)
    (hlower : start.next < d.next ∨ r'.level < r.level)
    (hk : r.Consumes → start.next < d.next ∨ start.next ≤ d.next ∧ r'.Consumes) :
    (of r').Sound t r start d := by
  refine ⟨hready, hlower, fun a d' _ hleads hconsumes hr => ?_⟩
  have hnext := hleads.next
  rcases hk hr with hlt | ⟨hle, hr'⟩
  · exact Nat.lt_of_lt_of_le hlt hnext
  · exact Nat.lt_of_le_of_lt hle (hconsumes hr')

/-- What is done next is decided by the next token. -/
theorem sound_current {k : Slot → Plan α} (hk : (k d.current).Sound t r start d) :
    (current >>= k).Sound t r start d :=
  hk

/-- A plan may look at the current token. -/
theorem sound_looked {f : Slot → Plan β} {k : β → Plan α}
    (hf : (f d.current >>= k).Sound t r start d) : ((current >>= f) >>= k).Sound t r start d :=
  hf

/-- A plan may pass a token, and has then passed one since the start. -/
theorem sound_step {k : Plan α} (hd : d.Reads t) (hsome : d.current.kind ≠ none)
    (hk : d.step.Reads t → d.step.next = d.next + 1 → k.Sound t r start d.step) :
    (step >>= fun _ => k).Sound t r start d :=
  ⟨hsome, hk (hd.step hsome) (Desk.next_step hsome)⟩

/-- A plan may refuse with a fault that can arise. -/
theorem sound_refuse {fault : ExprFault} (hfault : fault.Foreseen) :
    (refuse fault : Plan α).Sound t r start d :=
  hfault

/-- A plan may ask for a sign, when it is sound both behind the sign and
without it. -/
theorem sound_accept {sign : Sign} {x y : Plan α} (hd : d.Reads t)
    (hyes : d.step.Reads t → d.step.next = d.next + 1 → x.Sound t r start d.step)
    (hno : d.current.kind ≠ some sign.kind → y.Sound t r start d) :
    (accept sign >>= fun b => if b = true then x else y).Sound t r start d := by
  unfold accept
  refine sound_looked ?_
  cases hk : d.current.kind with
  | none =>
      refine hno ?_
      rw [hk]
      exact (Option.some_ne_none _).symm
  | some k =>
      have hsome : d.current.kind ≠ none := by
        rw [hk]
        exact Option.some_ne_none k
      by_cases hat : sign.isAt k = true
      · rw [Option.any_some, if_pos hat]
        exact sound_step hd hsome hyes
      · rw [Option.any_some, if_neg hat]
        refine hno fun heq => hat ?_
        rw [hk] at heq
        exact (ReadM.isAt_iff sign k).2 (Option.some.inj heq)

/-- A plan may ask for a name, when it is sound behind it. -/
theorem sound_name {fault : ExprFault} {k : Text → Plan α} (hfault : fault.Foreseen)
    (hd : d.Reads t)
    (hk : ∀ n, d.step.Reads t → d.step.next = d.next + 1 → (k n).Sound t r start d.step) :
    (name fault >>= k).Sound t r start d := by
  unfold name
  refine sound_looked ?_
  cases hn : d.current.kind.bind ReadM.nameOf? with
  | none => exact sound_refuse hfault
  | some n =>
      have hsome : d.current.kind ≠ none := by
        intro hnone
        rw [hnone] at hn
        cases hn
      exact sound_step hd hsome (hk n)

end Plan

-- ======================================================= rule by rule

namespace Rule

open Plan

variable {t : Text} {d : Desk}

/-- A pipe asks for a conditional, which is lower. -/
theorem sound_pipe : pipe.plan.Sound t pipe d d := by
  refine sound_of trivial (.inr (by decide)) fun input d' _ _ hlt => ?_
  exact sound_last trivial (.inl (hlt trivial)) fun _ => .inl (hlt trivial)

/-- The filters of a pipe are read behind a bar. -/
theorem sound_pipeTail (hd : d.Reads t) (input : Expr) :
    (pipeTail input).plan.Sound t (pipeTail input) d d := by
  refine sound_accept hd (fun hd₁ h₁ => ?_) fun _ => False.elim
  refine sound_name trivial hd₁ fun n hd₂ h₂ => ?_
  refine sound_of trivial (.inl (by omega)) fun args d' _ hleads _ => ?_
  have hnext := hleads.next
  exact sound_last trivial (.inl (by omega)) False.elim

/-- The arguments of a filter are read behind colons. -/
theorem sound_pipeArgs (hd : d.Reads t) (args : List Expr) :
    (pipeArgs args).plan.Sound t (pipeArgs args) d d := by
  refine sound_accept hd (fun _ h₁ => ?_) fun _ => False.elim
  refine sound_of trivial (.inl (by omega)) fun e d' _ hleads _ => ?_
  have hnext := hleads.next
  exact sound_last trivial (.inl (by omega)) False.elim

/-- A choice asks for pipes behind its two marks only. -/
theorem sound_cond : cond.plan.Sound t cond d d := by
  refine sound_of trivial (.inr (by decide)) fun test d₁ hd₁ _ hlt => ?_
  have hlt := hlt trivial
  refine sound_accept hd₁ (fun _ h₁ => ?_) fun _ _ => hlt
  refine sound_of trivial (.inl (by omega)) fun yes d₂ hd₂ hleads₂ _ => ?_
  have hnext := hleads₂.next
  refine sound_accept hd₂ (fun _ h₂ => ?_) fun _ => sound_refuse trivial
  refine sound_of trivial (.inl (by omega)) fun no d₃ _ hleads₃ _ _ => ?_
  have hnext₃ := hleads₃.next
  omega

/-- A level of operators asks for the next tighter one. -/
theorem sound_binary (level : Nat) : (binary level).plan.Sound t (binary level) d d := by
  cases level with
  | zero => exact sound_last trivial (.inr (by decide)) fun _ => .inr ⟨Nat.le_refl _, trivial⟩
  | succ level =>
      refine sound_of trivial (.inr (Nat.lt_succ_self _)) fun left d' _ _ hlt => ?_
      exact sound_last trivial (.inl (hlt trivial)) fun _ => .inl (hlt trivial)

/-- The operators of a level are read behind one of them. -/
theorem sound_binaryTail (hd : d.Reads t) (level : Nat) (left : Expr) :
    (binaryTail level left).plan.Sound t (binaryTail level left) d d := by
  refine sound_current ?_
  split
  · next op hop =>
      split
      · refine sound_step hd (by rw [hop]; exact Option.some_ne_none _) fun _ h₁ => ?_
        refine sound_of trivial (.inl (by omega)) fun right d' _ hleads _ => ?_
        have hnext := hleads.next
        exact sound_last trivial (.inl (by omega)) False.elim
      · exact False.elim
  · exact False.elim

/-- A power asks for a unary, and for itself behind its sign. -/
theorem sound_power : power.plan.Sound t power d d := by
  refine sound_of trivial (.inr (by decide)) fun base d₁ hd₁ _ hlt => ?_
  have hlt := hlt trivial
  refine sound_accept hd₁ (fun _ h₁ => ?_) fun _ _ => hlt
  refine sound_of trivial (.inl (by omega)) fun exponent d₂ _ hleads₂ _ _ => ?_
  have hnext := hleads₂.next
  omega

/-- An operand behind an operator of its own. -/
theorem sound_prefixed {start : Desk} (h : start.next < d.next) (make : Expr → Expr) :
    (of unary >>= fun e => pure (make e)).Sound t unary start d := by
  refine sound_of trivial (.inl h) fun e d' _ hleads _ _ => ?_
  have hnext := hleads.next
  omega

/-- A unary asks for itself behind a sign, and else for an access. -/
theorem sound_unary (hd : d.Reads t) : unary.plan.Sound t unary d d := by
  refine sound_accept hd (fun _ h => sound_prefixed (by omega) _) fun _ => ?_
  refine sound_accept hd (fun _ h => sound_prefixed (by omega) _) fun _ => ?_
  refine sound_accept hd (fun _ h => sound_prefixed (by omega) _) fun _ => ?_
  refine sound_accept hd (fun _ h => sound_prefixed (by omega) _) fun htypeof => ?_
  refine sound_accept hd (fun _ h => sound_prefixed (by omega) _) fun hvoid => ?_
  exact sound_last ⟨htypeof, hvoid⟩ (.inr (by decide)) fun _ => .inr ⟨Nat.le_refl _, trivial⟩

/-- An access asks for a primary, which is lower. -/
theorem sound_access (hready : access.Ready t d) : access.plan.Sound t access d d := by
  refine sound_of hready (.inr (by decide)) fun receiver d' _ _ hlt => ?_
  exact sound_last trivial (.inl (hlt trivial)) fun _ => .inl (hlt trivial)

/-- What is asked for behind a sign, and the tail of the access after it. -/
theorem sound_accessed {start : Desk} {receiver : Expr} {β : Type} (r : Rule β)
    (hready : r.Ready t d) (h : start.next < d.next) (make : β → Expr) :
    (of r >>= fun a => of (accessTail (make a))).Sound t (accessTail receiver) start d := by
  refine sound_of hready (.inl h) fun a d' _ hleads _ => ?_
  have hnext := hleads.next
  exact sound_last trivial (.inl (by omega)) False.elim

/-- The parts of an access are read behind their signs. -/
theorem sound_accessTail (hd : d.Reads t) (receiver : Expr) :
    (accessTail receiver).plan.Sound t (accessTail receiver) d d := by
  refine sound_accept hd (fun hd₁ h₁ => ?dot) fun _ => ?_
  case dot =>
    refine sound_name trivial hd₁ fun n _ h₂ => ?_
    exact sound_last trivial (.inl (by omega)) False.elim
  refine sound_accept hd (fun hd₁ h₁ => ?optional) fun _ => ?_
  case optional =>
    refine sound_accept hd₁ (fun _ h₂ => sound_accessed keyTail trivial (by omega) _) fun _ => ?_
    refine sound_accept hd₁
      (fun _ h₂ => sound_accessed (sequence .closeParen) trivial (by omega) _) fun _ => ?_
    refine sound_name trivial hd₁ fun n _ h₂ => ?_
    exact sound_last trivial (.inl (by omega)) False.elim
  refine sound_accept hd (fun _ h₁ => sound_accessed keyTail trivial (by omega) _) fun _ => ?_
  refine sound_accept hd
    (fun _ h₁ => sound_accessed (sequence .closeParen) trivial (by omega) _) fun _ => ?_
  refine sound_accept hd (fun _ h₁ => ?_) fun _ => False.elim
  exact sound_last trivial (.inl (by omega)) False.elim

/-- A keyed access asks for a pipe, which is lower, and passes a bracket. -/
theorem sound_keyTail : keyTail.plan.Sound t keyTail d d := by
  refine sound_of trivial (.inr (by decide)) fun key d₁ hd₁ _ hlt => ?_
  have hlt := hlt trivial
  refine sound_accept hd₁ (fun _ h₁ _ => ?_) fun _ => sound_refuse trivial
  omega

/-- A value behind the token that it is. -/
theorem sound_token {r : Rule Expr} (hd : d.Reads t) (hsome : d.current.kind ≠ none) (e : Expr) :
    (step >>= fun _ => pure e).Sound t r d d := by
  refine sound_step hd hsome fun _ h₁ _ => ?_
  omega

/-- What is asked for behind the first token of a primary expression. -/
theorem sound_opened {start : Desk} {β : Type} (r : Rule β) (hready : r.Ready t d)
    (h : start.next < d.next) (make : β → Expr) :
    (of r >>= fun a => pure (make a)).Sound t primary start d := by
  refine sound_of hready (.inl h) fun a d' _ hleads _ _ => ?_
  have hnext := hleads.next
  omega

/-- A primary passes a token before it asks for another rule. -/
theorem sound_primary (hd : d.Reads t) (hready : primary.Ready t d) :
    primary.plan.Sound t primary d d := by
  rw [plan]
  refine sound_current ?_
  obtain ⟨htypeof, hvoid⟩ := hready
  cases hk : d.current.kind with
  | none => exact sound_refuse trivial
  | some k =>
      have hsome : d.current.kind ≠ none := by
        rw [hk]
        exact Option.some_ne_none k
      cases k with
      | operator op => exact sound_refuse trivial
      | text value => exact sound_token hd hsome _
      | number value => exact sound_token hd hsome _
      | name n => exact sound_token hd hsome _
      | template raw =>
          refine sound_step hd hsome fun _ h₁ => ?_
          refine sound_last ⟨d.next, d.current.position, h₁, ?_⟩ (.inl (by omega))
            fun _ => .inl (by omega)
          rw [(Desk.leads_step d).slots, hd.getElem?_next, ← hk]
      -- the prefix operators among the keywords are read one level above
      | keyword word =>
          refine sound_step hd hsome fun _ h₁ => ?_
          have hlt : primary.Consumes → d.next < d.step.next := fun _ => by omega
          cases word with
          | typeof => exact absurd hk htypeof
          | void => exact absurd hk hvoid
          | _ => exact hlt
      | mark m =>
          cases m with
          | openParen =>
              refine sound_step hd hsome fun _ h₁ => ?_
              refine sound_of trivial (.inl (by omega)) fun e d₂ hd₂ hleads _ => ?_
              have hnext := hleads.next
              refine sound_accept hd₂ (fun _ h₂ _ => ?_) fun _ => sound_refuse trivial
              omega
          | openBracket =>
              refine sound_step hd hsome fun _ h₁ => ?_
              exact sound_opened (sequence .closeBracket) trivial (by omega) .array
          | openBrace =>
              refine sound_step hd hsome fun _ h₁ => ?_
              exact sound_opened mapBody trivial (by omega) fun entries => .map entries.1 entries.2
          | _ => exact sound_refuse trivial

/-- A sequence asks for its items, which are lower. -/
theorem sound_sequence (hd : d.Reads t) (closer : Mark) :
    (sequence closer).plan.Sound t (sequence closer) d d := by
  refine sound_accept hd (fun _ h₁ _ => by omega) fun _ => ?_
  exact sound_last trivial (.inr (Nat.lt_succ_self _)) fun _ => .inr ⟨Nat.le_refl _, trivial⟩

/-- The items of a sequence are read behind commas. -/
theorem sound_items (closer : Mark) (before : List Expr) :
    (items closer before).plan.Sound t (items closer before) d d := by
  refine sound_of trivial (.inr (Nat.lt_succ_self _)) fun e d₁ hd₁ _ hlt => ?_
  have hlt := hlt trivial
  refine sound_accept hd₁ (fun _ h₁ => ?_) fun _ => ?_
  · exact sound_last trivial (.inl (by omega)) fun _ => .inl (by omega)
  · refine sound_accept hd₁ (fun _ h₁ _ => ?_) fun _ => sound_refuse trivial
    omega

/-- The body of a map asks for its entries. -/
theorem sound_mapBody (hd : d.Reads t) : mapBody.plan.Sound t mapBody d d := by
  refine sound_accept hd (fun _ h₁ _ => by omega) fun _ => ?_
  exact sound_last trivial (.inr (Nat.lt_succ_self _)) fun _ => .inr ⟨Nat.le_refl _, trivial⟩

/-- The entries of a map are read behind their keys. -/
theorem sound_entries (hd : d.Reads t) (keys : List MapKey) (values : List Expr) :
    (entries keys values).plan.Sound t (entries keys values) d d := by
  refine sound_current ?_
  split
  · exact sound_refuse trivial
  · next key hkey =>
      have hsome : d.current.kind ≠ none := by
        intro hnone
        rw [hnone] at hkey
        cases hkey
      refine sound_step hd hsome fun _ h₁ => ?_
      refine sound_of trivial (.inl (by omega)) fun value d₂ hd₂ hleads _ => ?_
      have hnext := hleads.next
      refine sound_accept hd₂ (fun _ h₂ => ?_) fun _ => ?_
      · exact sound_last trivial (.inl (by omega)) fun _ => .inl (by omega)
      · refine sound_accept hd₂ (fun _ h₂ _ => ?_) fun _ => sound_refuse trivial
        omega

/-- The value of an entry is read behind a colon. -/
theorem sound_entryValue (hd : d.Reads t) (key : MapKey) :
    (entryValue key).plan.Sound t (entryValue key) d d := by
  refine sound_accept hd (fun _ h₁ => ?_) fun _ => ?_
  · exact sound_last trivial (.inl (by omega)) False.elim
  · split
    · exact sound_refuse trivial
    · exact False.elim

/-- A template literal asks for its substitutions, which are in its body. -/
theorem sound_template (hd : d.Reads t) {raw : Text} {position : Nat}
    (hready : (template raw position).Ready t d) :
    (template raw position).plan.Sound t (template raw position) d d := by
  obtain ⟨n, p, -, hslot⟩ := hready
  have hraw := hd.template_length_lt (List.mem_of_getElem? hslot)
  refine sound_of ?_ (.inr (Nat.add_lt_add_right (by decide) _)) fun es d' _ _ _ => ?_
  · intro part hpart
    have hcode := BacktickBody.code_length_lt hpart
    omega
  · unfold Expr.ofBody
    split
    · trivial
    · exact False.elim

/-- A substitution is read by itself, and its code is shorter than the text.
-/
theorem sound_substitutions {position : Nat} {parts : List Substitution}
    (hready : (substitutions position parts).Ready t d) :
    (substitutions position parts).plan.Sound t (substitutions position parts) d d := by
  cases parts with
  | nil => exact False.elim
  | cons part parts =>
      refine sound_of (hready part List.mem_cons_self) (.inr (Nat.succ_pos _)) fun e d₁ _ _ _ => ?_
      refine sound_of ?_ (.inr (Nat.lt_succ_self _)) fun es d₂ _ _ _ => False.elim
      exact fun p hp => hready p (List.mem_cons_of_mem _ hp)

/-- A whole text asks for a pipe, which is lower. -/
theorem sound_whole : whole.plan.Sound t whole d d := by
  rw [plan]
  refine sound_current ?_
  cases d.current.kind with
  | none => exact False.elim
  | some k =>
      refine sound_of trivial (.inr (Nat.lt_succ_self _)) fun e d₁ _ _ _ => ?_
      refine sound_current ?_
      cases d₁.current.kind with
      | none => exact False.elim
      | some k => exact sound_refuse trivial

/-- What is read by itself is shorter than the text around it. -/
theorem sound_standalone {code : Text} {offset : Nat} (hready : (standalone code offset).Ready t d) :
    (standalone code offset).plan.Sound t (standalone code offset) d d :=
  ⟨hready, fun _ => False.elim⟩

/-- The plan of every rule is sound from where the rule is asked for. -/
theorem sound_plan (hd : d.Reads t) {α : Type} (r : Rule α) (hready : r.Ready t d) :
    r.plan.Sound t r d d := by
  cases r with
  | pipe => exact sound_pipe
  | pipeTail input => exact sound_pipeTail hd input
  | pipeArgs args => exact sound_pipeArgs hd args
  | cond => exact sound_cond
  | binary level => exact sound_binary level
  | binaryTail level left => exact sound_binaryTail hd level left
  | power => exact sound_power
  | unary => exact sound_unary hd
  | access => exact sound_access hready
  | accessTail receiver => exact sound_accessTail hd receiver
  | keyTail => exact sound_keyTail
  | primary => exact sound_primary hd hready
  | sequence closer => exact sound_sequence hd closer
  | items closer before => exact sound_items closer before
  | mapBody => exact sound_mapBody hd
  | entries keys values => exact sound_entries hd keys values
  | entryValue key => exact sound_entryValue hd key
  | template raw position => exact sound_template hd hready
  | substitutions position parts => exact sound_substitutions hready
  | whole => exact sound_whole
  | standalone code offset => exact sound_standalone hready

end Rule

end KeyHarvest
