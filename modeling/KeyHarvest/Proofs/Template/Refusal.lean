/-
What a text is refused for when its tree is checked. There are three
reasons: a stray end tag, a malformed place, an element that was left open.
The check asks for them in this order, and of the nodes that give a reason
it blames the first in document order, which is the one furthest to the
left in the text (`refuses_of_check`).

The check looks for malformed places by the flags only. As these are raised
above all of them, it refuses a text wherever in its tree such a place is
(`check_parse_eq_ok`).
-/
import KeyHarvest.Proofs.Markup.Layout
import KeyHarvest.Proofs.Markup.Traversal
import KeyHarvest.Proofs.Template.Beside

namespace KeyHarvest.Template

open Markup (Kind flagged_parse pairwise_start_parse)
open Markup.Node (walk faults)

-- =============================================================== first

/-- A node of a tree has a property, and none that has it begins further to
the left. -/
structure First (root : Markup.Node) (P : Markup.Node → Prop) (n : Markup.Node) : Prop where
  mem : n ∈ walk [root]
  has : P n
  leftmost : ∀ m ∈ walk [root], P m → n.start ≤ m.start

/-- What the walk over the tree of a text comes to first stands first. -/
theorem first_of_find? {t : Text} {p : Markup.Node → Bool} {P : Markup.Node → Prop}
    {n : Markup.Node} (h : (walk [Markup.parse t]).find? p = some n)
    (hp : ∀ m, p m = true ↔ P m) : First (Markup.parse t) P n := by
  refine ⟨List.mem_of_find?_eq_some h, (hp n).1 (List.find?_some h), ?_⟩
  intro m hm hP
  obtain ⟨-, before, behind, hwalk, hbefore⟩ := List.find?_eq_some_iff_append.1 h
  have hpairwise := pairwise_start_parse t
  rw [hwalk] at hm hpairwise
  obtain ⟨-, hbehind, -⟩ := List.pairwise_append.1 hpairwise
  cases List.mem_append.1 hm with
  | inl hm =>
      have hnot := hbefore m hm
      rw [(hp m).2 hP] at hnot
      cases hnot
  | inr hm =>
      by_cases hsame : m = n
      · rw [hsame]
      · exact (List.pairwise_cons.1 hbehind).1 m (List.mem_of_ne_of_mem hsame hm)

-- ============================================================= reasons

namespace Source

variable {s : Source} {t : Text}

/-- What a tree is refused for, and the node that is blamed. -/
inductive Refuses (s : Source) (root : Markup.Node) : Error → Prop where
  | stray {n : Markup.Node} (h : First root (·.kind = .strayEndTag) n) :
      Refuses s root (s.refuse n (.strayEndTag (s.tagName n)))
  | malformed {n : Markup.Node} (hstray : ∀ m ∈ walk [root], m.kind ≠ .strayEndTag)
      (h : First root (·.isFault = true) n) : Refuses s root (s.refuse n (s.faultAt n))
  | unclosed {n : Markup.Node} (hstray : ∀ m ∈ walk [root], m.kind ≠ .strayEndTag)
      (hfault : ∀ m ∈ walk [root], m.isFault = false) (hflawed : root.flawed = true)
      (h : First root (fun n => n.kind = .element ∧ s.isUnclosed n = true) n) :
      Refuses s root (s.refuseOpen n)

/-- The check of the tree of a text looks for the first node that gives
each of the reasons. -/
theorem check_parse (s : Source) (t : Text) :
    s.check (Markup.parse t)
      = match (walk [Markup.parse t]).find? (·.kind = .strayEndTag) with
        | some n => .error (s.refuse n (.strayEndTag (s.tagName n)))
        | none =>
            match (walk [Markup.parse t]).find? (·.isFault) with
            | some n => .error (s.refuse n (s.faultAt n))
            | none =>
                match if (Markup.parse t).flawed then s.unclosed? [Markup.parse t] else none with
                | some n => .error (s.refuseOpen n)
                | none => .ok () := by
  have hstray : ((Markup.parse t).findAll .strayEndTag).head?
      = (walk [Markup.parse t]).find? (·.kind = .strayEndTag) := List.head?_filter
  have hfault : (faults [Markup.parse t]).head? = (walk [Markup.parse t]).find? (·.isFault) :=
    Markup.Node.head?_faults (List.forall_mem_singleton.2 (flagged_parse t))
  rw [← hstray, ← hfault, check]
  cases (Markup.parse t).findAll .strayEndTag with
  | cons n ns => rfl
  | nil =>
      dsimp only [List.head?_nil]
      by_cases hflawed : (Markup.parse t).flawed = true
      · rw [if_pos hflawed, if_pos hflawed]
        cases faults [Markup.parse t] with
        | cons n ns => rfl
        | nil => rfl
      · have hroot : ¬(Markup.parse t).isFault = true := Bool.false_ne_true
        have hnone : faults [Markup.parse t] = [] := by
          rw [faults, if_neg hroot, if_neg hflawed, faults]
        rw [if_neg hflawed, if_neg hflawed, hnone]
        rfl

/-- A text is refused for the first of the reasons that there are, and
blamed is the leftmost node that gives it. -/
theorem refuses_of_check {e : Error} (h : s.check (Markup.parse t) = .error e) :
    s.Refuses (Markup.parse t) e := by
  rw [check_parse] at h
  -- the checks come one after the other, and the first that fails names the error
  cases hstray : (walk [Markup.parse t]).find? (·.kind = .strayEndTag) with
  | some n =>
      rw [hstray] at h
      cases h
      exact .stray (first_of_find? hstray fun m => decide_eq_true_iff)
  | none =>
      have hnostray : ∀ m ∈ walk [Markup.parse t], m.kind ≠ .strayEndTag := by
        simpa using hstray
      rw [hstray] at h
      dsimp only at h
      cases hfault : (walk [Markup.parse t]).find? (·.isFault) with
      | some n =>
          rw [hfault] at h
          cases h
          exact .malformed hnostray (first_of_find? hfault fun m => Iff.rfl)
      | none =>
          have hnofault : ∀ m ∈ walk [Markup.parse t], m.isFault = false := by
            simpa using hfault
          rw [hfault] at h
          dsimp only at h
          by_cases hflawed : (Markup.parse t).flawed = true
          · rw [if_pos hflawed] at h
            cases hopen : s.unclosed? [Markup.parse t] with
            | some n =>
                rw [hopen] at h
                cases h
                rw [unclosed?, List.find?_filter] at hopen
                refine .unclosed hnostray hnofault hflawed (first_of_find? hopen ?_)
                intro m
                simp
            | none =>
                rw [hopen] at h
                cases h
          · rw [if_neg hflawed] at h
            cases h

/-- A text passes its check exactly when nothing in its tree gives a
reason. -/
theorem check_parse_eq_ok :
    s.check (Markup.parse t) = .ok ()
      ↔ (∀ m ∈ walk [Markup.parse t], m.kind ≠ .strayEndTag)
        ∧ (∀ m ∈ walk [Markup.parse t], m.isFault = false)
        ∧ ((Markup.parse t).flawed = true → s.unclosed? [Markup.parse t] = none) := by
  rw [check_parse]
  constructor
  · intro h
    cases hstray : (walk [Markup.parse t]).find? (·.kind = .strayEndTag) with
    | some n =>
        rw [hstray] at h
        cases h
    | none =>
        rw [hstray] at h
        dsimp only at h
        cases hfault : (walk [Markup.parse t]).find? (·.isFault) with
        | some n =>
            rw [hfault] at h
            cases h
        | none =>
            rw [hfault] at h
            dsimp only at h
            refine ⟨by simpa using hstray, by simpa using hfault, ?_⟩
            intro hflawed
            rw [if_pos hflawed] at h
            cases hopen : s.unclosed? [Markup.parse t] with
            | none => rfl
            | some n =>
                rw [hopen] at h
                cases h
  · intro h
    obtain ⟨hstray, hfault, hopen⟩ := h
    have hnostray : (walk [Markup.parse t]).find? (·.kind = .strayEndTag) = none := by
      simpa using hstray
    have hnofault : (walk [Markup.parse t]).find? (·.isFault) = none := by simpa using hfault
    rw [hnostray, hnofault]
    dsimp only
    by_cases hflawed : (Markup.parse t).flawed = true
    · rw [if_pos hflawed, hopen hflawed]
    · rw [if_neg hflawed]

end Source

end KeyHarvest.Template
