/-
Reading makes progress. A run of the reader is followed from moment to
moment (`Moment`): from a look to what is decided on it, past a token, into
a rule that is asked for and back from it, into a text of its own and back.
At every moment that is reached from the start of a text the desk stands at
a slot of the text that it is on, and the plan that is left is sound
(`Reached.held`). So the number of the next slot never falls within a text
and never passes the end, and the word for a slot behind the end is never
used.

# The measure

A rule that is asked for weighs less than the rule that asks: its text is
shorter, or fewer slots are left of the same text, or it is lower in the
grammar (`Rule.weight`, compared in this order). Induction on the weight
shows that every rule ends, and behind what it began with (`ends`); inside,
it is an induction on the plan of the rule, which `Measure` has taken
apart.
-/
import KeyHarvest.Proofs.Expr.Measure
import KeyHarvest.Proofs.Expr.Scan
import Mathlib.Data.Prod.Lex

namespace KeyHarvest

-- ============================================================ measures

/-- The weight of a rule on a desk: the length of the text, the number of
slots from the next one on, and the level of the rule in the grammar. -/
def Rule.weight {α : Type} (t : Text) (d : Desk) (r : Rule α) : Nat ×ₗ Nat ×ₗ Nat :=
  toLex (t.length, toLex (d.slots.length - d.next, r.level))

/-- The desk of a text that has just been taken up. -/
def Desk.opened (t : Text) (ts : List (Token Text)) (offset : Nat) : Desk :=
  ⟨slotsOf t ts, 0, offset⟩

section

variable {α β : Type} {t u : Text} {r : Rule α} {r' : Rule β} {d d' : Desk}

/-- Further on, and lower at the same place, there is less to be read. -/
theorem weight_lt (hd : d'.Reads t) (hleads : d.Leads d')
    (hlower : d.next < d'.next ∨ r'.level < r.level) : r'.weight t d' < r.weight t d := by
  have hinside := hd.inside
  have hnext := hleads.next
  rw [hleads.slots] at hinside
  refine Prod.Lex.toLex_lt_toLex.2 (.inr ⟨rfl, Prod.Lex.toLex_lt_toLex.2 ?_⟩)
  rw [hleads.slots]
  dsimp only
  omega

/-- In a shorter text there is less to be read. -/
theorem weight_lt_of_length_lt (h : u.length < t.length) : r'.weight u d' < r.weight t d :=
  Prod.Lex.toLex_lt_toLex.2 (.inl h)

/-- A desk that is opened reads its text. -/
theorem reads_opened {ts : List (Token Text)} (h : tokenize 0 t = .ok ts) (offset : Nat) :
    (Desk.opened t ts offset).Reads t :=
  ⟨⟨ts, h, rfl⟩, by simp [Desk.opened, slotsOf]⟩

end

-- ============================================================== ending

/-- A rule ends, on the same text and no further back than it began. With a
value it ends behind a token when it is one of those that consume, and a
refusal is one that can arise. -/
def Ends {α : Type} (t : Text) (d : Desk) (r : Rule α) : Prop :=
  ∃ out d', r.read d = some (out, d') ∧ d.Leads d' ∧ d'.Reads t
    ∧ (∀ a, out = .ok a → r.Consumes → d.next < d'.next)
    ∧ ∀ e, out = .error e → e.Foreseen

/-- No text is cut into tokens with a refusal that speaks of a reserved
word. -/
theorem foreseen_of_tokenize {t : Text} {fault : ExprFault} {p : Nat}
    (h : tokenize 0 t = .error (.malformed fault p)) (offset : Nat) :
    (ExprError.malformed fault (p + offset)).Foreseen := by
  obtain ⟨-, ⟨c, cs, hdrop, -, -⟩, rfl⟩ := tokenize_eq_malformed_iff.1 h
  rw [hdrop, Stuck.fault]
  split <;> trivial

/-- Taking up a text opens its first slot, or is refused with the desk as it
was. -/
theorem begin_cases (t : Text) (offset : Nat) (d : Desk) :
    (∃ ts, tokenize 0 t = .ok ts ∧ ReadM.begin t offset d = some (.ok (), .opened t ts offset))
      ∨ ∃ e, ReadM.begin t offset d = some (.error e, d) ∧ e.Foreseen := by
  rw [ReadM.begin]
  cases hts : tokenize 0 t with
  | ok ts => exact .inl ⟨ts, rfl, rfl⟩
  | error e =>
      cases e with
      | malformed fault p => exact .inr ⟨_, rfl, foreseen_of_tokenize hts offset⟩
      | oversized n => exact .inr ⟨_, rfl, trivial⟩

/-- An error is foreseen when it is. -/
theorem foreseen_of_error {α : Type} {e : ExprError} (h : e.Foreseen) :
    ∀ e', (.error e : Except ExprError α) = .error e' → e'.Foreseen := by
  intro _ he
  cases he
  exact h

/-- A text of its own is read to an end when the rule for it ends, and the
desk is as it was. -/
theorem exists_standalone_eq {t : Text} (offset : Nat) (d : Desk)
    (h : ∀ ts, tokenize 0 t = .ok ts → Ends t (.opened t ts offset) .whole) :
    ∃ out, (Rule.standalone t offset).read d = some (out, d)
      ∧ ∀ e, out = .error e → e.Foreseen := by
  have hrun : ∃ out d', (do ReadM.begin t offset; Rule.whole.read : ReadM Expr) d = some (out, d')
      ∧ ∀ e, out = .error e → e.Foreseen := by
    rcases begin_cases t offset d with ⟨ts, hts, hbegin⟩ | ⟨e, hbegin, he⟩
    · obtain ⟨out, d', hread, -, -, -, hforeseen⟩ := h ts hts
      exact ⟨out, d', (ReadM.bind_of_ok hbegin).trans hread, hforeseen⟩
    · exact ⟨.error e, d, ReadM.bind_of_error hbegin, foreseen_of_error he⟩
  obtain ⟨out, d', hrun, hforeseen⟩ := hrun
  refine ⟨out, ?_, hforeseen⟩
  rw [Rule.read]
  show ((do ReadM.begin t offset; Rule.whole.read : ReadM Expr) d).bind _ = _
  rw [hrun]
  rfl

namespace Plan

/-- A text is read by itself in the middle of a plan. -/
theorem run_text {α : Type} (t : Text) (offset : Nat) (k : Expr → Plan α) :
    (text t offset k).run = (Rule.standalone t offset).read >>= fun e => (k e).run := by
  rw [Rule.read]
  rfl

/-- A sound plan is carried out to an end when all rules of less weight
end. -/
theorem Sound.ends {α : Type} {t : Text} {r : Rule α} {start d : Desk} {p : Plan α}
    (hp : p.Sound t r start d) (hd : d.Reads t) (hstart : start.Leads d)
    (ih : ∀ {u : Text} {β : Type} (r' : Rule β) (d' : Desk), d'.Reads u → r'.Ready u d' →
      r'.weight u d' < r.weight t start → Ends u d' r') :
    ∃ out d', p.run d = some (out, d') ∧ d.Leads d' ∧ d'.Reads t
      ∧ (∀ a, out = .ok a → r.Consumes → start.next < d'.next)
      ∧ ∀ e, out = .error e → e.Foreseen := by
  -- on the plan; the reader it is part of and the position it began at stay fixed
  induction p generalizing d with
  | give a => exact ⟨.ok a, d, rfl, .refl d, hd, fun _ _ => hp, nofun⟩
  | fail e => exact ⟨.error e, d, rfl, .refl d, hd, nofun, foreseen_of_error hp⟩
  | look k ihk => exact ihk d hp hd hstart
  | advance k ihk =>
      obtain ⟨out, d', hrun, hleads, hrest⟩ :=
        ihk hp.2 (hd.step hp.1) (hstart.trans d.leads_step)
      exact ⟨out, d', (ReadM.bind_of_ok (ReadM.advance_run d)).trans hrun,
        d.leads_step.trans hleads, hrest⟩
  -- another reader: it ends by the induction on the weight, and the plan goes on behind it
  | ask r' k ihk =>
      obtain ⟨hready, hlower, hk⟩ := hp
      obtain ⟨out₁, d₁, hread, hleads₁, hd₁, hconsumes, hforeseen⟩ :=
        ih r' d hd hready (weight_lt hd hstart hlower)
      cases out₁ with
      | error e =>
          exact ⟨.error e, d₁, ReadM.bind_of_error hread, hleads₁, hd₁, nofun,
            foreseen_of_error (hforeseen e rfl)⟩
      | ok b =>
          obtain ⟨out, d', hrun, hleads, hrest⟩ :=
            ihk b (hk b d₁ hd₁ hleads₁ (hconsumes b rfl)) hd₁ (hstart.trans hleads₁)
          exact ⟨out, d', (ReadM.bind_of_ok hread).trans hrun, hleads₁.trans hleads, hrest⟩
  -- the code of a substitution is shorter than the text
  | text code offset k ihk =>
      obtain ⟨hshorter, hk⟩ := hp
      obtain ⟨out₁, hread, hforeseen⟩ := exists_standalone_eq offset d
        fun ts hts => ih .whole _ (reads_opened hts offset) trivial (weight_lt_of_length_lt hshorter)
      rw [run_text]
      cases out₁ with
      | error e =>
          exact ⟨.error e, d, ReadM.bind_of_error hread, .refl d, hd, nofun,
            foreseen_of_error (hforeseen e rfl)⟩
      | ok e =>
          obtain ⟨out, d', hrun, hrest⟩ := ihk e (hk e) hd hstart
          exact ⟨out, d', (ReadM.bind_of_ok hread).trans hrun, hrest⟩

end Plan

/-- Every rule ends, wherever it may be asked for. -/
theorem ends {α : Type} {t : Text} {d : Desk} (r : Rule α) (hd : d.Reads t) (hready : r.Ready t d) :
    Ends t d r := by
  induction hw : r.weight t d using WellFoundedLT.induction generalizing α t d with
  | ind w ih =>
      subst hw
      rw [Ends, Rule.read_eq]
      exact (Rule.sound_plan hd r hready).ends hd (.refl d)
        fun r' d' hd' hready' hlt => ih _ hlt r' hd' hready' rfl

/-- A text of its own leaves the desk as it is. -/
theorem standalone_ends (t : Text) (offset : Nat) (d : Desk) :
    ∃ out, (Rule.standalone t offset).read d = some (out, d) ∧ ∀ e, out = .error e → e.Foreseen :=
  exists_standalone_eq offset d fun _ hts => ends .whole (reads_opened hts offset) trivial

-- ============================================================= moments

/-- A moment of a run: the text that is read, the rule that is at work and
the desk on which it was asked for, what is left of its plan, and the desk
as it is now. -/
structure Moment where
  text : Text
  Value : Type
  rule : Rule Value
  start : Desk
  rest : Plan Value
  desk : Desk

namespace Moment

/-- The moment when a rule is asked for. -/
def asked (t : Text) (d : Desk) {α : Type} (r : Rule α) : Moment := ⟨t, α, r, d, r.plan, d⟩

/-- From one moment to the next. A question leads into the rule that is
asked for, and on with what it gives; so does a text of its own. -/
inductive Next : Moment → Moment → Prop where
  | look {t : Text} {α : Type} {r : Rule α} {start d : Desk} {k : Desk → Plan α} :
      Next ⟨t, α, r, start, .look k, d⟩ ⟨t, α, r, start, k d, d⟩
  | advance {t : Text} {α : Type} {r : Rule α} {start d : Desk} {k : Plan α} :
      Next ⟨t, α, r, start, .advance k, d⟩ ⟨t, α, r, start, k, d.step⟩
  | call {t : Text} {α β : Type} {r : Rule α} {start d : Desk} {r' : Rule β} {k : β → Plan α} :
      Next ⟨t, α, r, start, .ask r' k, d⟩ (asked t d r')
  | back {t : Text} {α β : Type} {r : Rule α} {start d d' : Desk} {r' : Rule β} {k : β → Plan α}
      {b : β} (h : r'.read d = some (.ok b, d')) :
      Next ⟨t, α, r, start, .ask r' k, d⟩ ⟨t, α, r, start, k b, d'⟩
  | enter {t : Text} {α : Type} {r : Rule α} {start d : Desk} {code : Text} {offset : Nat}
      {k : Expr → Plan α} {ts : List (Token Text)} (h : tokenize 0 code = .ok ts) :
      Next ⟨t, α, r, start, .text code offset k, d⟩ (asked code (.opened code ts offset) .whole)
  | leave {t : Text} {α : Type} {r : Rule α} {start d d' : Desk} {code : Text} {offset : Nat}
      {k : Expr → Plan α} {e : Expr} (h : (Rule.standalone code offset).read d = some (.ok e, d')) :
      Next ⟨t, α, r, start, .text code offset k, d⟩ ⟨t, α, r, start, k e, d'⟩

/-- What holds at a moment: the desk is that of the text and stands at one
of its slots, which is the one that is looked at. A rule that is asked for
weighs less than the one at work, and if it is one that consumes, it gives
a value only behind a token that it has passed; a backtick literal is asked
for right behind its token. A text of its own is shorter. No refusal speaks
of a reserved word. The next moment is no further back on the same desk, or
at the first slot of a shorter text. -/
structure Progresses (m : Moment) : Prop where
  reads : m.desk.Reads m.text
  at_slot : m.desk.slots[m.desk.next]? = some m.desk.current
  calls : ∀ {β : Type} (r : Rule β) (k : β → Plan m.Value), m.rest = .ask r k →
    r.weight m.text m.desk < m.rule.weight m.text m.start
      ∧ ∀ b d', r.read m.desk = some (.ok b, d') → r.Consumes → m.desk.next < d'.next
  behind : ∀ raw position k, m.rest = .ask (.template raw position) k →
    ∃ n p, m.desk.next = n + 1 ∧ m.desk.slots[n]? = some ⟨some (.template raw), p⟩
  texts : ∀ code offset k, m.rest = .text code offset k → code.length < m.text.length
    ∧ ∀ d, Rule.whole.weight code d < m.rule.weight m.text m.start
  refuses : ∀ e, m.rest = .fail e → e.Foreseen
  moves : ∀ m', m.Next m' →
    (m'.text = m.text ∧ m'.desk.slots = m.desk.slots ∧ m.desk.next ≤ m'.desk.next)
      ∨ m'.text.length < m.text.length ∧ m'.desk.next = 0

/-- What is kept from moment to moment. -/
structure Held (m : Moment) : Prop where
  reads : m.desk.Reads m.text
  leads : m.start.Leads m.desk
  sound : m.rest.Sound m.text m.rule m.start m.desk

/-- A rule that is ready may be asked for. -/
theorem held_asked {t : Text} {d : Desk} {α : Type} {r : Rule α} (hd : d.Reads t)
    (hready : r.Ready t d) : (asked t d r).Held :=
  ⟨hd, .refl d, Rule.sound_plan hd r hready⟩

/-- A rule that has given a value has ended as rules do. -/
theorem leads_of_read {t : Text} {d d' : Desk} {β : Type} {r : Rule β} {b : β} (hd : d.Reads t)
    (hready : r.Ready t d) (h : r.read d = some (.ok b, d')) :
    d.Leads d' ∧ d'.Reads t ∧ (r.Consumes → d.next < d'.next) := by
  obtain ⟨out, d₁, hread, hleads, hd₁, hconsumes, -⟩ := ends r hd hready
  rw [h] at hread
  cases hread
  exact ⟨hleads, hd₁, hconsumes b rfl⟩

/-- What is read by itself leaves the desk as it was. -/
theorem eq_of_standalone {code : Text} {offset : Nat} {d d' : Desk} {e : Expr}
    (h : (Rule.standalone code offset).read d = some (.ok e, d')) : d' = d := by
  obtain ⟨out, hread, -⟩ := standalone_ends code offset d
  rw [h] at hread
  cases hread
  rfl

/-- One step keeps what is kept. -/
theorem Held.next {m m' : Moment} (h : m.Held) (hm : m.Next m') : m'.Held := by
  obtain ⟨hd, hstart, hsound⟩ := h
  cases hm with
  | look => exact ⟨hd, hstart, hsound⟩
  | advance => exact ⟨hd.step hsound.1, hstart.trans (Desk.leads_step _), hsound.2⟩
  | call => exact held_asked hd hsound.1
  | @back _ _ _ _ _ _ _ _ _ b hread =>
      obtain ⟨hready, -, hk⟩ := hsound
      obtain ⟨hleads, hd', hconsumes⟩ := leads_of_read hd hready hread
      exact ⟨hd', hstart.trans hleads, hk b _ hd' hleads hconsumes⟩
  | enter hts => exact held_asked (reads_opened hts _) trivial
  | leave hread =>
      obtain rfl := eq_of_standalone hread
      exact ⟨hd, hstart, hsound.2 _⟩

/-- Where this is kept, one step goes no further back on the same desk. -/
theorem Held.moves {m m' : Moment} (h : m.Held) (hm : m.Next m') :
    (m'.text = m.text ∧ m'.desk.slots = m.desk.slots ∧ m.desk.next ≤ m'.desk.next)
      ∨ m'.text.length < m.text.length ∧ m'.desk.next = 0 := by
  obtain ⟨hd, hstart, hsound⟩ := h
  cases hm with
  | look => exact .inl ⟨rfl, rfl, Nat.le_refl _⟩
  | advance => exact .inl ⟨rfl, (Desk.leads_step _).slots, (Desk.leads_step _).next⟩
  | call => exact .inl ⟨rfl, rfl, Nat.le_refl _⟩
  | back hread =>
      obtain ⟨hleads, -⟩ := leads_of_read hd hsound.1 hread
      exact .inl ⟨rfl, hleads.slots, hleads.next⟩
  | enter hts => exact .inr ⟨hsound.1, rfl⟩
  | leave hread =>
      obtain rfl := eq_of_standalone hread
      exact .inl ⟨rfl, rfl, Nat.le_refl _⟩

/-- Where this is kept, the run makes progress. -/
theorem Held.progresses {m : Moment} (h : m.Held) : m.Progresses := by
  have hsound := h.sound
  refine ⟨h.reads, h.reads.getElem?_next, ?calls, ?behind, ?texts, ?refuses, fun m' hm => h.moves hm⟩
  case calls =>
    intro β r k hrest
    rw [hrest] at hsound
    obtain ⟨hready, hlower, -⟩ := hsound
    exact ⟨weight_lt h.reads h.leads hlower,
      fun b d' hread => (leads_of_read h.reads hready hread).2.2⟩
  case behind =>
    intro raw position k hrest
    rw [hrest] at hsound
    exact hsound.1
  case texts =>
    intro code offset k hrest
    rw [hrest] at hsound
    exact ⟨hsound.1, fun _ => weight_lt_of_length_lt hsound.1⟩
  case refuses =>
    intro e hrest
    rw [hrest] at hsound
    exact hsound

end Moment

/-- The moments of reading a text, from its first slot on. -/
inductive Reached (t : Text) : Moment → Prop where
  | start {ts : List (Token Text)} (h : tokenize 0 t = .ok ts) :
      Reached t (.asked t (.opened t ts 0) .whole)
  | next {m m' : Moment} (h : Reached t m) (hm : m.Next m') : Reached t m'

/-- Every moment that is reached holds the invariant. -/
theorem Reached.held {t : Text} {m : Moment} (h : Reached t m) : m.Held := by
  induction h with
  | start hts => exact Moment.held_asked (reads_opened hts 0) trivial
  | next _ hm ih => exact ih.next hm

/-- Reading a binding makes progress, whatever the text is. At every moment
of the run the number of the next slot has not fallen and has not passed
the end, rules that are asked for weigh less and have gone past a token
when they give a value, and no refusal speaks of a reserved word that is no
operand (`Moment.Progresses`); the moments are those of the reader, which
does what its plans say. So the run ends, with the desk as it was. -/
theorem binding_progress (t : Text) :
    (∀ m, Reached t m → m.Progresses)
      ∧ (∀ {α : Type} (r : Rule α), r.read = r.plan.run)
      ∧ ∀ d, ∃ out, ReadM.binding t d = some (out, d) ∧ ∀ e, out = .error e → e.Foreseen := by
  refine ⟨fun m hm => hm.held.progresses, fun r => r.read_eq, fun d => ?_⟩
  obtain ⟨out, hread, hforeseen⟩ := standalone_ends t 0 d
  cases out with
  | error e => exact ⟨.error e, ReadM.bind_of_error hread, hforeseen⟩
  | ok e => exact ⟨.ok (.sourced e t), ReadM.bind_of_ok hread, nofun⟩

/-- In a literal with a substitution the run comes to the text of the
substitution, and makes progress there too. -/
theorem binding_progress_nested :
    ∃ m : Moment, Reached (Text.ofString "`$\x7ba\x7d`") m ∧ m.Progresses
      ∧ (∃ offset k, m.rest = .text (Text.ofString "a") offset k)
      ∧ (Text.ofString "a").length < m.text.length := by
  have htokens : tokenize 0 (Text.ofString "`$\x7ba\x7d`")
      = .ok [⟨.template (Text.ofString "$\x7ba\x7d"), 0⟩] := by decide +kernel
  have hstart := Reached.start htokens
  have hpipe : Reached _ (.asked _ _ .pipe) := (hstart.next .look).next .call
  have hbinary : Reached _ (.asked _ _ (.binary 7)) := (hpipe.next .call).next .call
  have hunary : Reached _ (.asked _ _ .unary) :=
    ((((((((hbinary.next .call).next .call).next .call).next .call).next .call).next .call).next
      .call).next .call).next .call
  have haccess : Reached _ (.asked _ _ .access) :=
    (((((hunary.next .look).next .look).next .look).next .look).next .look).next .call
  have htemplate : Reached _ (.asked _ _ (.template (Text.ofString "$\x7ba\x7d") 1)) :=
    ((((haccess.next .call).next .look).next .advance).next .look).next .call
  have hparts : (BacktickBody.split 0 (Text.ofString "$\x7ba\x7d")).parts
      = [⟨[], Text.ofString "a", 2⟩] := by decide +kernel
  have hsubstitutions : Reached _ (.asked _ _ (.substitutions 1 _)) := htemplate.next .call
  rw [hparts] at hsubstitutions
  have htext : Reached _ (.asked _ _ (.standalone (Text.ofString "a") 3)) := hsubstitutions.next .call
  have hprogress := (binding_progress (Text.ofString "`$\x7ba\x7d`")).1 _ htext
  exact ⟨_, htext, hprogress, ⟨3, .give, rfl⟩, (hprogress.texts _ 3 .give rfl).1⟩

end KeyHarvest
