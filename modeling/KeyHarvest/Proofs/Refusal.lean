/-
What a step is refused with. Most of what is read here is read piece by
piece, in order, until a piece is refused. `refusal?` forgets what was
read and keeps the refusal, and the refusal of a whole run is then the
first one among its pieces (`refusal?_mapM`, `refusal?_foldlM`).

`Reaches` says of a list that one gets to a piece of one sort past pieces
of another sort only.
-/
import KeyHarvest.Text.Basic

namespace KeyHarvest

variable {α β ε : Type}

-- ============================================================ reaching

/-- Some piece is of the sort `q`, and all before it are of the sort
`p`. -/
def Reaches (p q : α → Prop) (l : List α) : Prop :=
  ∃ before a after, l = before ++ a :: after ∧ (∀ b ∈ before, p b) ∧ q a

@[simp] theorem not_reaches_nil {p q : α → Prop} : ¬ Reaches p q [] := by
  intro h
  obtain ⟨before, a, after, hl, -⟩ := h
  cases before <;> cases hl

/-- One gets to a piece at once, or past the first one. -/
theorem reaches_cons {p q : α → Prop} {a : α} {l : List α} :
    Reaches p q (a :: l) ↔ q a ∨ (p a ∧ Reaches p q l) := by
  constructor
  · intro h
    obtain ⟨before, b, after, hl, hp, hq⟩ := h
    cases before with
    | nil =>
        cases hl
        exact .inl hq
    | cons c before =>
        cases hl
        exact .inr ⟨hp a (by simp), before, b, after, rfl,
          fun x hx => hp x (List.mem_cons_of_mem a hx), hq⟩
  · intro h
    rcases h with hq | ⟨hp, before, b, after, rfl, hps, hq⟩
    · exact ⟨[], a, l, rfl, by simp, hq⟩
    · refine ⟨a :: before, b, after, rfl, ?_, hq⟩
      intro x hx
      rcases List.mem_cons.1 hx with rfl | hx
      · exact hp
      · exact hps x hx

theorem Reaches.imp {p p' q q' : α → Prop} {l : List α} (h : Reaches p q l)
    (hp : ∀ a ∈ l, p a → p' a) (hq : ∀ a ∈ l, q a → q' a) : Reaches p' q' l := by
  obtain ⟨before, a, after, rfl, hb, ha⟩ := h
  refine ⟨before, a, after, rfl, ?_, hq a (by simp) ha⟩
  intro b hmem
  exact hp b (by simp [hmem]) (hb b hmem)

theorem reaches_congr {p p' q q' : α → Prop} {l : List α} (hp : ∀ a ∈ l, p a ↔ p' a)
    (hq : ∀ a ∈ l, q a ↔ q' a) : Reaches p q l ↔ Reaches p' q' l :=
  ⟨fun h => h.imp (fun a ha => (hp a ha).1) fun a ha => (hq a ha).1,
   fun h => h.imp (fun a ha => (hp a ha).2) fun a ha => (hq a ha).2⟩

/-- The first answer for a list is that of a piece that one reaches past
pieces without an answer. -/
theorem findSome?_eq_some_iff_reaches {f : α → Option β} {l : List α} {b : β} :
    l.findSome? f = some b ↔ Reaches (fun a => f a = none) (fun a => f a = some b) l := by
  rw [List.findSome?_eq_some_iff]
  constructor
  · intro h
    obtain ⟨before, a, after, hl, ha, hb⟩ := h
    exact ⟨before, a, after, hl, hb, ha⟩
  · intro h
    obtain ⟨before, a, after, hl, hb, ha⟩ := h
    exact ⟨before, a, after, hl, ha, hb⟩

/-- The same for an answer of some form. -/
theorem exists_findSome?_iff_reaches {ι : Type} {f : α → Option β} {g : ι → β} {l : List α} :
    (∃ i, l.findSome? f = some (g i))
      ↔ Reaches (fun a => f a = none) (fun a => ∃ i, f a = some (g i)) l := by
  constructor
  · intro h
    obtain ⟨i, h⟩ := h
    exact (findSome?_eq_some_iff_reaches.1 h).imp (fun _ _ h => h) fun _ _ h => ⟨i, h⟩
  · intro h
    obtain ⟨before, a, after, hl, hb, i, ha⟩ := h
    exact ⟨i, findSome?_eq_some_iff_reaches.2 ⟨before, a, after, hl, hb, ha⟩⟩

-- =========================================================== refusals

/-- What a result is refused with, if it is. -/
def refusal? : Except ε α → Option ε
  | .ok _ => none
  | .error e => some e

@[simp] theorem refusal?_ok (a : α) : refusal? (.ok a : Except ε α) = none := rfl

@[simp] theorem refusal?_error (e : ε) : refusal? (.error e : Except ε α) = some e := rfl

theorem refusal?_eq_some {x : Except ε α} {e : ε} : refusal? x = some e ↔ x = .error e := by
  cases x <;> simp

theorem refusal?_eq_none {x : Except ε α} : refusal? x = none ↔ ∃ a, x = .ok a := by
  cases x <;> simp

/-- Two steps succeed when each of them does. -/
theorem bind_eq_ok {x : Except ε α} {f : α → Except ε β} {b : β} :
    (x >>= f) = .ok b ↔ ∃ a, x = .ok a ∧ f a = .ok b := by
  cases x with
  | error e => simp [bind, Except.bind]
  | ok a => simp [bind, Except.bind]

/-- Two steps are refused when one of them is. -/
theorem bind_eq_error {x : Except ε α} {f : α → Except ε β} {e : ε} :
    (x >>= f) = .error e ↔ x = .error e ∨ ∃ a, x = .ok a ∧ f a = .error e := by
  cases x with
  | error e' => simp [bind, Except.bind]
  | ok a => simp [bind, Except.bind]

theorem mapError_eq_error {ε' : Type} {x : Except ε α} {f : ε → ε'} {e : ε'}
    (h : x.mapError f = .error e) : ∃ e', x = .error e' ∧ f e' = e := by
  cases x with
  | error e' => exact ⟨e', rfl, Except.error.inj h⟩
  | ok a => cases h

theorem mapError_eq_ok {ε' : Type} {x : Except ε α} {f : ε → ε'} {a : α}
    (h : x.mapError f = .ok a) : x = .ok a := by
  cases x with
  | error e => cases h
  | ok b => exact congrArg _ (Except.ok.inj h)

/-- Refusals of two steps are changed step by step. -/
theorem mapError_bind {ε' : Type} (x : Except ε α) (f : α → Except ε β) (g : ε → ε') :
    (x >>= f).mapError g = x.mapError g >>= fun a => (f a).mapError g := by
  cases x <;> rfl

/-- Of two steps the first refusal counts, when the first step has no say
in the refusal of the second. -/
theorem refusal?_bind {x : Except ε α} {f : α → Except ε β} {o : Option ε}
    (h : ∀ a, refusal? (f a) = o) : refusal? (x >>= f) = (refusal? x).or o := by
  cases x with
  | error e => rfl
  | ok a => exact h a

/-- A last step that always succeeds refuses nothing. -/
theorem refusal?_bind_of_ok {x : Except ε α} {f : α → Except ε β}
    (h : ∀ a, refusal? (f a) = none) : refusal? (x >>= f) = refusal? x := by
  rw [refusal?_bind h, Option.or_none]

@[simp] theorem refusal?_bind_pure (x : Except ε α) (f : α → β) :
    refusal? (x >>= fun a => pure (f a)) = refusal? x :=
  refusal?_bind_of_ok fun _ => rfl

theorem bind_pure_eq_error {x : Except ε α} {f : α → β} {e : ε} :
    (x >>= fun a => pure (f a)) = .error e ↔ x = .error e := by
  rw [← refusal?_eq_some, refusal?_bind_pure, refusal?_eq_some]

/-- The first answer of a list is that of its head, or else one of its
tail. -/
theorem findSome?_cons_or (f : α → Option β) (a : α) (l : List α) :
    (a :: l).findSome? f = (f a).or (l.findSome? f) := by
  rw [List.findSome?_cons]
  cases f a <;> rfl

/-- Of pieces that are read in order the first refusal counts. -/
theorem refusal?_mapM (f : α → Except ε β) (l : List α) :
    refusal? (l.mapM f) = l.findSome? fun a => refusal? (f a) := by
  induction l with
  | nil => rfl
  | cons a l ih =>
      rw [List.mapM_cons, List.findSome?_cons]
      cases hf : f a with
      | error e => rfl
      | ok b =>
          show refusal? (l.mapM f >>= fun bs => pure (b :: bs)) = _
          rw [refusal?_bind_pure, ih]
          rfl

/-- The same for a running total, when it has no say in the refusals. -/
theorem refusal?_foldlM {f : β → α → Except ε β} {g : α → Option ε}
    (h : ∀ b a, refusal? (f b a) = g a) (l : List α) (b : β) :
    refusal? (l.foldlM f b) = l.findSome? g := by
  induction l generalizing b with
  | nil => rfl
  | cons a l ih =>
      rw [List.foldlM_cons, List.findSome?_cons, ← h b a]
      cases hf : f b a with
      | error e => rfl
      | ok b' => exact ih b'

end KeyHarvest
