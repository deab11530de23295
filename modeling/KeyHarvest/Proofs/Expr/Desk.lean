/-
The desk of the reader, and what it is to go the way of the grammar. A desk
stands before a list of items when its next tokens are these, at their
places in the outermost text (`Stands`). A run from there gives what a
reading of the items gives when both come to the same value and the desk
stands before what is left, or both are refused with the same error
(`Gives`). The small steps of the reader, accepting a sign and taking a
name, are opened here once, by what comes next.

The substitutions of backtick literals are left open: `Reenters` says that
they are read from every desk, which is left as it was.
-/
import KeyHarvest.Expr.Session
import KeyHarvest.Proofs.Expr.Offset

namespace KeyHarvest

/-- A step leaves the offset of a desk as it is. -/
theorem Desk.step_offset (d : Desk) : d.step.offset = d.offset := by
  unfold Desk.step
  split <;> rfl

namespace ReadM

variable {α β γ δ : Type}

-- =============================================================== runs

/-- A step that gives a value goes on from the desk that it leaves. -/
theorem bind_of_ok {x : ReadM α} {k : α → ReadM β} {d d' : Desk} {a : α}
    (h : x d = some (.ok a, d')) : (x >>= k) d = k a d' := by
  show (x d).bind (fun r => ExceptT.bindCont k r.1 r.2) = _
  rw [h]
  rfl

/-- A step that is refused ends the run. -/
theorem bind_of_error {x : ReadM α} {k : α → ReadM β} {d d' : Desk} {e : ExprError}
    (h : x d = some (.error e, d')) : (x >>= k) d = some (.error e, d') := by
  show (x d).bind (fun r => ExceptT.bindCont k r.1 r.2) = _
  rw [h]
  rfl

/-- Two steps that leave the desk as it was, in a row. -/
theorem bind_at_rest {x : ReadM α} {k : α → ReadM β} {y : Except ExprError α}
    {f : α → Except ExprError β} {d : Desk} (hx : x d = some (y, d))
    (hk : ∀ a, k a d = some (f a, d)) : (x >>= k) d = some (y >>= f, d) := by
  cases y with
  | error e => exact bind_of_error hx
  | ok a =>
      rw [bind_of_ok hx]
      exact hk a

theorem current_run (d : Desk) : current d = some (.ok d.current, d) := rfl

theorem advance_run (d : Desk) : advance d = some (.ok (), d.step) := rfl

theorem refuse_run (fault : ExprFault) (d : Desk) :
    (refuse fault : ReadM α) d = some (.error (.malformed fault d.place), d) := rfl

-- ============================================================== desks

/-- The substitutions of a backtick body are read from every desk, which is
left as it was. -/
def Reenters (raw : Text) : Prop :=
  ∀ part ∈ (BacktickBody.split 0 raw).parts, ∀ offset d,
    standalone part.code offset d = some (Expr.parseAt offset part.code, d)

/-- Slots of a text at an offset, and the items that they are; `stop` is the
end of the text. -/
inductive Ahead (stop offset : Nat) : List Slot → List Item → Prop where
  | done {p : Nat} (h : offset + p = stop) : Ahead stop offset [⟨none, p⟩] []
  | more {k : TokenKind Text} {p : Nat} {slots : List Slot} {ts : List Item}
      (hk : ∀ raw, k = .template raw → Reenters raw) (h : Ahead stop offset slots ts) :
      Ahead stop offset (⟨some k, p⟩ :: slots) (Expr.toItem ⟨k, offset + p⟩ :: ts)

/-- A desk whose next tokens are the given items. -/
def Stands (stop : Nat) (d : Desk) (ts : List Item) : Prop :=
  Ahead stop d.offset (d.slots.drop d.next) ts

/-- The current token is the first of those that are left. -/
theorem current_of_drop {d : Desk} {s : Slot} {slots : List Slot}
    (h : d.slots.drop d.next = s :: slots) : d.current = s := by
  have hget : d.slots[d.next]? = some s := by
    rw [← List.head?_drop, h]
    rfl
  rw [Desk.current, List.getD_eq_getElem?_getD, hget]
  rfl

variable {stop n : Nat} {d : Desk} {ts : List Item}

/-- A desk stands at the end of its text, or at a token and then behind
it. -/
theorem Stands.cases (h : Stands stop d ts) :
    (ts = [] ∧ ∃ p, d.current = ⟨none, p⟩ ∧ d.offset + p = stop)
      ∨ ∃ k p r, ts = Expr.toItem ⟨k, d.offset + p⟩ :: r ∧ d.current = ⟨some k, p⟩
        ∧ (∀ raw, k = .template raw → Reenters raw) ∧ Stands stop d.step r := by
  unfold Stands at h
  generalize hs : d.slots.drop d.next = slots at h
  cases h with
  | @done p h => exact .inl ⟨rfl, p, current_of_drop hs, h⟩
  | @more k p slots r hk h =>
      have hcurrent := current_of_drop hs
      have hstep : d.step = { d with next := d.next + 1 } := by
        rw [Desk.step, hcurrent]
        rfl
      refine .inr ⟨k, p, r, rfl, hcurrent, hk, ?_⟩
      rw [hstep, Stands]
      show Ahead stop d.offset (d.slots.drop (d.next + 1)) r
      rw [← List.drop_drop, hs]
      exact h

/-- The place of a desk is where its next item is. -/
theorem Stands.place_eq (h : Stands stop d ts) : d.place = Grammar.position stop ts := by
  rcases h.cases with ⟨rfl, p, hp, hstop⟩ | ⟨k, p, r, rfl, hcurrent, -, -⟩
  · rw [Desk.place, hp]
    exact hstop
  · rw [Desk.place, hcurrent]
    rfl

-- ============================================================== signs

/-- A token is at a sign when it is the sign. -/
theorem isAt_iff (sign : Sign) (k : TokenKind Text) : sign.isAt k = true ↔ k = sign.kind := by
  cases sign <;> cases k <;> simp [Sign.isAt, Sign.kind, eq_comm]

/-- An item is a sign when its token is. -/
theorem toItem_kind_eq (sign : Sign) (k : TokenKind Text) (p : Nat) :
    (Expr.toItem ⟨k, p⟩).kind = sign.kind ↔ k = sign.kind := by
  cases sign <;> cases k <;> simp [Expr.toItem, TokenKind.map, Sign.kind]

/-- A sign that comes next is accepted, and nothing happens when it does
not. -/
theorem accept_cases (h : Stands stop d ts) (sign : Sign) :
    (∃ p r, ts = ⟨sign.kind, p⟩ :: r ∧ accept sign d = some (.ok true, d.step)
        ∧ Stands stop d.step r)
      ∨ (∀ p r, ts ≠ ⟨sign.kind, p⟩ :: r) ∧ accept sign d = some (.ok false, d) := by
  have hrun : accept sign d
      = (if d.current.kind.any sign.isAt then (do advance; return true) else return false
          : ReadM Bool) d := rfl
  rcases h.cases with ⟨rfl, p, hp, -⟩ | ⟨k, p, r, rfl, hcurrent, -, hr⟩
  · refine .inr ⟨by simp, ?_⟩
    rw [hrun, hp]
    rfl
  · have hany : d.current.kind.any sign.isAt = sign.isAt k := by
      rw [hcurrent]
      rfl
    by_cases hk : k = sign.kind
    · refine .inl ⟨d.offset + p, r, ?_, ?_, hr⟩
      · rw [← (toItem_kind_eq sign k (d.offset + p)).2 hk]
        rfl
      · rw [hrun, hany, if_pos ((isAt_iff sign k).2 hk)]
        rfl
    · refine .inr ⟨?_, ?_⟩
      · intro q s heq
        obtain ⟨hitem, -⟩ := List.cons.inj heq
        exact hk ((toItem_kind_eq sign k (d.offset + p)).1 (by rw [hitem]))
      · rw [hrun, hany, if_neg (mt (isAt_iff sign k).1 hk)]
        rfl

/-- What is done when a sign is accepted. -/
theorem bind_accepted {sign : Sign} {x y : ReadM α} {d' : Desk}
    (h : accept sign d = some (.ok true, d')) :
    (accept sign >>= fun b => if b = true then x else y) d = x d' := bind_of_ok h

/-- What is done when it is not. -/
theorem bind_declined {sign : Sign} {x y : ReadM α} (h : accept sign d = some (.ok false, d)) :
    (accept sign >>= fun b => if b = true then x else y) d = y d := bind_of_ok h

/-- The grammar sees a name where the reader does. -/
theorem nameOf?_toItem (k : TokenKind Text) (p : Nat) :
    Grammar.nameOf? (Expr.toItem ⟨k, p⟩) = nameOf? k := by
  cases k <;> rfl

/-- The grammar sees the key of a map where the reader does. -/
theorem mapKeyOf?_toItem (k : TokenKind Text) (p : Nat) :
    Grammar.mapKeyOf? (Expr.toItem ⟨k, p⟩) = mapKeyOf? k := by
  cases k <;> rfl

/-- The grammar shows a token as the reader does. -/
theorem shown_toItem (k : TokenKind Text) (p : Nat) :
    Grammar.shown (Expr.toItem ⟨k, p⟩) = k.shown id := by
  cases k <;> rfl

/-- A name that comes next is taken, and asked for when it does not. -/
theorem name_cases (h : Stands stop d ts) (fault : ExprFault) :
    (∃ t r n, ts = t :: r ∧ Grammar.nameOf? t = some n ∧ name fault d = some (.ok n, d.step)
        ∧ Stands stop d.step r)
      ∨ Grammar.nextName ts = none
        ∧ name fault d = some (.error (.malformed fault (Grammar.position stop ts)), d) := by
  have hrun : name fault d
      = (d.current.kind.bind nameOf?).elim (refuse fault)
          (fun n => (do advance; return n : ReadM Text)) d := by
    rw [name, bind_of_ok (current_run d)]
    cases d.current.kind.bind nameOf? <;> rfl
  have hplace := h.place_eq
  rcases h.cases with ⟨rfl, p, hp, -⟩ | ⟨k, p, r, rfl, hcurrent, -, hr⟩
  · refine .inr ⟨rfl, ?_⟩
    rw [hrun, hp, ← hplace]
    rfl
  · have hname := nameOf?_toItem k (d.offset + p)
    rw [hcurrent] at hrun
    cases hn : nameOf? k with
    | some n =>
        rw [hn] at hname
        refine .inl ⟨_, r, n, rfl, hname, ?_, hr⟩
        rw [hrun, Option.bind_some, hn]
        rfl
    | none =>
        rw [hn] at hname
        refine .inr ⟨hname, ?_⟩
        rw [hrun, Option.bind_some, hn, ← hplace]
        rfl

-- ============================================================ results

/-- A run that gives what a reading gives, and leaves a desk that stands
before what the reading leaves; or both are refused with one error. -/
def Gives (stop : Nat) (out : β → α × List Item) (x : Option (Except ExprError α × Desk)) :
    Except ExprError β → Prop
  | .ok b => ∃ d, x = some (.ok (out b).1, d) ∧ Stands stop d (out b).2
  | .error e => ∃ d, x = some (.error e, d)

/-- What a reading gives and what it leaves. -/
def outcome {ts : List Item} (x : Reading α ts) : α × List Item := (x.value, x.rest)

/-- The same for a reading that may have taken nothing. -/
def remainder {ts : List Item} (x : Trailing α ts) : α × List Item := (x.value, x.rest)

namespace Gives

/-- A refusal of the reader is one of the grammar, at the same place. -/
theorem refuse {out : β → α × List Item} (h : Stands stop d ts) (fault : ExprFault) :
    Gives stop out (ReadM.refuse fault d) (Grammar.fail stop fault ts) :=
  ⟨d, by rw [refuse_run, h.place_eq]⟩

/-- Two steps go the way of two readings when each of them does. -/
theorem bind {out : β → α × List Item} {out' : δ → γ × List Item} {x : ReadM α} {k : α → ReadM γ}
    {y : Except ExprError β} {f : β → Except ExprError δ} (hx : Gives stop out (x d) y)
    (hk : ∀ b d', Stands stop d' (out b).2 → Gives stop out' (k (out b).1 d') (f b)) :
    Gives stop out' ((x >>= k) d) (y >>= f) := by
  cases y with
  | error e =>
      obtain ⟨d', hd'⟩ := hx
      exact ⟨d', bind_of_error hd'⟩
  | ok b =>
      obtain ⟨d', hd', hs⟩ := hx
      rw [bind_of_ok hd']
      exact hk b d' hs

/-- A step after a reading. -/
theorem andThen {out : δ → γ × List Item} {x : ReadM α} {k : α → ReadM γ}
    {y : Except ExprError (Reading α ts)} {f : Reading α ts → Except ExprError δ}
    (hx : Gives stop outcome (x d) y)
    (hk : ∀ v r hr d', Stands stop d' r → Gives stop out (k v d') (f ⟨v, r, hr⟩)) :
    Gives stop out ((x >>= k) d) (y >>= f) :=
  hx.bind fun b d' hd' => hk b.value b.rest b.shorter d' hd'

/-- A step after a reading that may have taken nothing. -/
theorem afterward {out : δ → γ × List Item} {x : ReadM α} {k : α → ReadM γ}
    {y : Except ExprError (Trailing α ts)} {f : Trailing α ts → Except ExprError δ}
    (hx : Gives stop remainder (x d) y)
    (hk : ∀ v r hr d', Stands stop d' r → Gives stop out (k v d') (f ⟨v, r, hr⟩)) :
    Gives stop out ((x >>= k) d) (y >>= f) :=
  hx.bind fun b d' hd' => hk b.value b.rest b.noLonger d' hd'

/-- A run is the same when a reading is only wrapped. -/
theorem wrap {out : β → α × List Item} {out' : γ → α × List Item}
    {x : Option (Except ExprError α × Desk)} {y : Except ExprError β}
    {f : β → Except ExprError γ} (hx : Gives stop out x y)
    (hf : ∀ b, ∃ c, f b = .ok c ∧ out' c = out b) : Gives stop out' x (y >>= f) := by
  cases y with
  | error e => exact hx
  | ok b =>
      obtain ⟨c, hc, hout⟩ := hf b
      show Gives stop out' x (f b)
      rw [hc]
      show ∃ d, x = some (.ok (out' c).1, d) ∧ Stands stop d (out' c).2
      rw [hout]
      exact hx

end Gives

end ReadM

end KeyHarvest
