/-
The walk over a markup tree and the search for its malformed places, as
loops over a stack. In both, the next node is the last of the stack: it is
taken off, it is listed if the search takes it, and if the search goes on
below it, its children are put on the stack, the first of them last
(`Traversal.round`). `Node.walk` and `Node.faults` are what the two loops
end with (`iterate_round`).

# The invariant

What was taken so far, followed by what the recursive search takes of the
trees on the stack, from its end to its beginning, is the same before and
after a round (`outcome_round`). The trees on the stack have fewer nodes
after it (`countAll_round`), so their number bounds the rounds.

# Flags

The search for malformed places stays out of nodes without a flag. It
misses nothing if a flag is raised above every malformed place
(`Node.Flagged`), and this is so in the tree of every text
(`flagged_parse`). Where it is so, the first place that the search finds
is the first one of the whole tree (`head?_faults`).
-/
import KeyHarvest.Proofs.Markup.Behind
import KeyHarvest.Proofs.Markup.Preorder
import Mathlib.Data.List.Induction
import Mathlib.Logic.Function.Iterate

namespace KeyHarvest.Markup

open Node (walk faults walk_singleton walk_append count countAll count_eq countAll_append at?
  Address allAbove_nil allAbove_cons)

-- ========================================================== recursion

namespace Visit

variable {v : Visit} {n : Node} {ns ms : List Node}

/-- What a search takes of trees, one after the other. -/
def found (v : Visit) (ns : List Node) : List Node :=
  ns.flatMap fun n => (v.gather n).map Prod.snd

theorem found_append (v : Visit) (ns ms : List Node) :
    v.found (ns ++ ms) = v.found ns ++ v.found ms := List.flatMap_append

/-- Without their addresses, the gathered nodes are what is found. -/
theorem map_snd_gatherFrom (v : Visit) (i : Nat) (ns : List Node) :
    (v.gatherFrom i ns).map Prod.snd = v.found ns := by
  induction ns generalizing i with
  | nil => rw [gatherFrom]; rfl
  | cons n ns ih =>
      rw [gatherFrom, List.map_append, List.map_map, ih]
      rfl

/-- The trees that a search goes on with below a node. -/
def opened (v : Visit) (n : Node) : List Node := if v.enters n then n.children else []

/-- A search takes the first node or not, and goes on with the trees below
it in front of what is left. -/
theorem found_cons (v : Visit) (n : Node) (ns : List Node) :
    v.found (n :: ns) = (if v.takes n then [n] else []) ++ v.found (v.opened n ++ ns) := by
  have hown : (v.gather n).map Prod.snd
      = (if v.takes n then [n] else []) ++ v.found (v.opened n) := by
    rw [gather_eq, List.map_append, opened]
    congr 1
    · split
      · rfl
      · rfl
    · split
      · exact v.map_snd_gatherFrom 0 n.children
      · rfl
  calc v.found (n :: ns)
    _ = (v.gather n).map Prod.snd ++ v.found ns := rfl
    _ = (if v.takes n then [n] else []) ++ (v.found (v.opened n) ++ v.found ns) := by
          rw [hown, List.append_assoc]
    _ = (if v.takes n then [n] else []) ++ v.found (v.opened n ++ ns) := by rw [found_append]

theorem found_singleton (v : Visit) (n : Node) : v.found [n] = (v.gather n).map Prod.snd := by
  rw [found, List.flatMap_singleton]

/-- The walk over a worklist is the recursive one over its trees. -/
theorem walk_eq_found (ns : List Node) : walk ns = everything.found ns := by
  induction ns using Node.walk.induct with
  | case1 => rw [walk]; rfl
  | case2 n ns ih =>
      rw [walk, ih, found_cons]
      rfl

/-- The search for malformed places in a worklist is the recursive one that
looks at the flags. -/
theorem faults_eq_found (ns : List Node) : faults ns = flagged.found ns := by
  induction ns using Node.faults.induct with
  | case1 => rw [faults]; rfl
  | case2 n ns hfault ih =>
      rw [faults, if_pos hfault, ih, found_cons]
      simp [flagged, opened, hfault]
  | case3 n ns hfault hflawed ih =>
      rw [faults, if_neg hfault, if_pos hflawed, ih, found_cons]
      simp [flagged, opened, hfault, hflawed]
  | case4 n ns hfault hflawed ih =>
      rw [faults, if_neg hfault, if_neg hflawed, ih, found_cons]
      simp [flagged, opened, hfault, hflawed]

end Visit

-- ============================================================= rounds

/-- A search on its way: the nodes that are still to be seen, the next one
last, and what was taken so far. -/
structure Traversal where
  stack : List Node
  taken : List Node

namespace Traversal

variable {v : Visit} {s : Traversal} {n : Node} {stack taken : List Node}

/-- A search that begins at a node. -/
def start (root : Node) : Traversal := ⟨[root], []⟩

/-- One round: the last node of the stack is taken off it and looked at.
When the stack is empty the search is over. -/
def round (v : Visit) (s : Traversal) : Traversal :=
  match s.stack.getLast? with
  | none => s
  | some n =>
      { stack := s.stack.dropLast ++ (v.opened n).reverse
        taken := s.taken ++ if v.takes n then [n] else [] }

theorem round_nil : round v ⟨[], taken⟩ = ⟨[], taken⟩ := rfl

theorem round_concat : round v ⟨stack ++ [n], taken⟩
    = ⟨stack ++ (v.opened n).reverse, taken ++ if v.takes n then [n] else []⟩ := by
  simp [round]

/-- What a search ends with: what was taken, and what is taken of the trees
on the stack. -/
def outcome (v : Visit) (s : Traversal) : List Node := s.taken ++ v.found s.stack.reverse

/-- A round does not change what the search ends with. -/
theorem outcome_round (v : Visit) (s : Traversal) : (s.round v).outcome v = s.outcome v := by
  obtain ⟨stack, taken⟩ := s
  cases stack using List.reverseRecOn with
  | nil => rfl
  | append_singleton stack n =>
      rw [round_concat]
      unfold outcome
      rw [List.reverse_append, List.reverse_reverse, List.reverse_concat, Visit.found_cons,
        List.append_assoc]

theorem countAll_reverse (ns : List Node) : countAll ns.reverse = countAll ns := by
  induction ns with
  | nil => rfl
  | cons n ns ih =>
      rw [List.reverse_cons, countAll_append, ih, countAll, countAll, countAll]
      omega

/-- A round leaves fewer nodes to be seen. -/
theorem countAll_round (v : Visit) (hopen : s.stack ≠ []) :
    countAll (s.round v).stack < countAll s.stack := by
  obtain ⟨stack, taken⟩ := s
  cases stack using List.reverseRecOn with
  | nil => exact absurd rfl hopen
  | append_singleton stack n =>
      have hopened : countAll (v.opened n) < count n := by
        rw [Visit.opened, count_eq]
        split
        · omega
        · rw [countAll]
          omega
      rw [round_concat]
      dsimp only
      rw [countAll_append, countAll_append, countAll_reverse, countAll, countAll]
      omega

/-- With as many rounds as there are nodes the search is over, and has
taken what the recursive search takes. -/
theorem iterate_round (v : Visit) {k : Nat} (h : countAll s.stack ≤ k) :
    (round v)^[k] s = ⟨[], s.outcome v⟩ := by
  induction k generalizing s with
  | zero =>
      obtain ⟨stack, taken⟩ := s
      cases stack with
      | nil => simp [outcome, Visit.found]
      | cons n ns =>
          rw [countAll, count_eq] at h
          omega
  | succ k ih =>
      rw [Function.iterate_succ_apply, ← outcome_round]
      apply ih
      by_cases hopen : s.stack = []
      · obtain ⟨stack, taken⟩ := s
        obtain rfl : stack = [] := hopen
        rw [round_nil, countAll]
        exact Nat.zero_le k
      · have hround := countAll_round v hopen
        omega

end Traversal

-- ============================================================== flags

namespace Node

variable {root n m : Node} {a b : Address}

/-- Above every malformed place a flag is raised. -/
def Flagged (root : Node) : Prop :=
  ∀ a m, root.at? a = some m → m.isFault = true → root.AllAbove (·.flawed = true) a

/-- A malformed place that no other one is above. -/
def Outermost (root : Node) (a : Address) (m : Node) : Prop :=
  m.isFault = true ∧ root.AllAbove (·.isFault = false) a

theorem at?_cons {i : Nat} {c : Node} (hc : n.children[i]? = some c) (a : Address) :
    n.at? (i :: a) = c.at? a := by
  rw [at?, hc]
  rfl

/-- What holds above every malformed place holds below a child too. -/
theorem Flagged.child {c : Node} (h : n.Flagged) (hc : c ∈ n.children) : c.Flagged := by
  intro a m hm hfault
  obtain ⟨i, hi⟩ := List.mem_iff_getElem?.1 hc
  have habove := h (i :: a) m (by rw [at?_cons hi, hm]) hfault
  exact ((allAbove_cons hi).1 habove).2

/-- The walk over a tree comes to the nodes that have an address. -/
theorem mem_walk_iff_at? : m ∈ walk [n] ↔ ∃ a, n.at? a = some m := by
  rw [Visit.walk_eq_found, Visit.found_singleton]
  simp only [List.mem_map, Prod.exists, exists_eq_right, Visit.mem_gather]
  exact exists_congr fun a => ⟨fun h => h.1, fun h => ⟨h, rfl, fun _ _ _ _ _ => rfl⟩⟩

/-- The walk lists the nodes of a tree. -/
theorem lists_walk (root : Node) : root.Lists (fun _ _ => True) (walk [root]) := by
  rw [Visit.walk_eq_found, Visit.found_singleton]
  apply (Visit.everything.lists_gather root).congr
  intro a m _
  exact iff_of_true ⟨rfl, fun _ _ _ _ _ => rfl⟩ trivial

/-- A recursive search that heeds no flags lists the outermost malformed
places. -/
theorem lists_outermost (root : Node) :
    root.Lists root.Outermost ((Visit.outermost.gather root).map Prod.snd) := by
  apply (Visit.outermost.lists_gather root).congr
  intro a m _
  simp [Visit.outermost, Outermost]

/-- A search that heeds the flags lists the same, if they are raised above
every malformed place. -/
theorem lists_faults (h : root.Flagged) : root.Lists root.Outermost (faults [root]) := by
  rw [Visit.faults_eq_found, Visit.found_singleton]
  apply (Visit.flagged.lists_gather root).congr
  intro a m hm
  constructor
  · intro hp
    refine ⟨hp.1, hp.2.imp fun n hn => ?_⟩
    simp only [Visit.flagged, Bool.and_eq_true, Bool.not_eq_true'] at hn
    exact hn.1
  · intro hp
    refine ⟨hp.1, fun b n hbegins hne hn => ?_⟩
    have hfault := hp.2 b n hbegins hne hn
    have hflawed := h a m hm hp.1 b n hbegins hne hn
    simp [Visit.flagged, hfault, hflawed]

/-- A malformed place is an outermost one, or is below one. -/
theorem exists_outermost (hm : root.at? a = some m) (hfault : m.isFault = true) :
    ∃ b n, b <+: a ∧ root.at? b = some n ∧ root.Outermost b n := by
  by_cases hroot : root.isFault = true
  · exact ⟨[], root, List.nil_prefix, rfl, hroot, allAbove_nil⟩
  induction a generalizing root with
  | nil =>
      obtain rfl : root = m := Option.some_inj.1 hm
      exact absurd hfault hroot
  | cons i a ih =>
      rw [at?, Option.bind_eq_some_iff] at hm
      obtain ⟨c, hc, hm⟩ := hm
      have hchild : ∃ b n, b <+: a ∧ c.at? b = some n ∧ c.Outermost b n := by
        by_cases hcfault : c.isFault = true
        · exact ⟨[], c, List.nil_prefix, rfl, hcfault, allAbove_nil⟩
        · exact ih hm hcfault
      obtain ⟨b, n, hbegins, hn, houter⟩ := hchild
      refine ⟨i :: b, n, List.cons_prefix_cons.2 ⟨rfl, hbegins⟩, ?_, houter.1, ?_⟩
      · rw [at?_cons hc, hn]
      · exact (allAbove_cons hc).2 ⟨by simpa using hroot, houter.2⟩

/-- No outermost malformed place is below another. -/
theorem Outermost.eq_of_begins (ha : root.Outermost a m) (hm : root.at? a = some m)
    (hb : root.Outermost b n) (hbegins : a <+: b) : a = b := by
  by_contra hne
  have hclear : m.isFault = false := hb.2 a m hbegins hne hm
  rw [ha.1] at hclear
  cases hclear

/-- Below a node without a flag nothing is malformed. -/
theorem Flagged.not_isFault (h : n.Flagged) (hflawed : n.flawed ≠ true) :
    ∀ m ∈ walk n.children, m.isFault ≠ true := by
  intro m hm hfault
  obtain ⟨c, hc, hm⟩ := mem_walk.1 hm
  obtain ⟨a, ha⟩ := mem_walk_iff_at?.1 hm
  obtain ⟨i, hi⟩ := List.mem_iff_getElem?.1 hc
  have habove := h (i :: a) m (by rw [at?_cons hi, ha]) hfault
  exact hflawed ((allAbove_cons hi).1 habove).1

/-- The first malformed place that is found is the first one of all. -/
theorem head?_faults {ns : List Node} (h : ∀ n ∈ ns, n.Flagged) :
    (faults ns).head? = (walk ns).find? (·.isFault) := by
  induction ns using faults.induct with
  | case1 => rw [faults, walk]; rfl
  | case2 n ns hfault ih =>
      rw [faults, if_pos hfault, walk, List.find?_cons_of_pos hfault]
      rfl
  | case3 n ns hfault hflawed ih =>
      rw [faults, if_neg hfault, if_pos hflawed, walk, List.find?_cons_of_neg hfault]
      apply ih
      rw [List.forall_mem_append]
      rw [List.forall_mem_cons] at h
      exact ⟨fun c hc => h.1.child hc, h.2⟩
  | case4 n ns hfault hflawed ih =>
      rw [List.forall_mem_cons] at h
      have hnone : (walk n.children).find? (·.isFault) = none :=
        List.find?_eq_none.2 (h.1.not_isFault hflawed)
      rw [faults, if_neg hfault, if_neg hflawed, walk, List.find?_cons_of_neg hfault, walk_append,
        List.find?_append, hnone, ih h.2]
      rfl

end Node

-- ============================================================== texts

/-- A node raises its flag when it is malformed or a child raises one. -/
def Node.Raises (n : Node) : Prop :=
  (n.isFault || n.children.any (·.flawed)) = true → n.flawed = true

/-- Where all nodes pass flags on, a node raises its flag when a place below
it is malformed. -/
theorem Node.flawed_of_raises {n m : Node} {a : Address} (h : ∀ x ∈ walk [n], x.Raises)
    (hm : n.at? a = some m) (hfault : m.isFault = true) : n.flawed = true := by
  induction a generalizing n with
  | nil =>
      obtain rfl : n = m := Option.some_inj.1 hm
      apply h n (Node.mem_walk_of_mem List.mem_cons_self)
      rw [hfault]
      rfl
  | cons i a ih =>
      rw [at?, Option.bind_eq_some_iff] at hm
      obtain ⟨c, hc, hm⟩ := hm
      have hmem : c ∈ n.children := List.mem_of_getElem? hc
      rw [walk_singleton, List.forall_mem_cons, Node.forall_mem_walk] at h
      apply h.1
      rw [Bool.or_eq_true, List.any_eq_true]
      exact .inr ⟨c, hmem, ih (h.2 c hmem) hm⟩

/-- Where all nodes pass flags on, they are raised above every malformed
place. -/
theorem Node.flagged_of_raises {root : Node} (h : ∀ n ∈ walk [root], n.Raises) :
    root.Flagged := by
  intro a m hm hfault
  induction a generalizing root with
  | nil => exact allAbove_nil
  | cons i a ih =>
      have hroot : root.flawed = true := Node.flawed_of_raises h hm hfault
      rw [at?, Option.bind_eq_some_iff] at hm
      obtain ⟨c, hc, hm⟩ := hm
      rw [walk_singleton, List.forall_mem_cons, Node.forall_mem_walk] at h
      exact (allAbove_cons hc).2 ⟨hroot, ih (h.2 c (List.mem_of_getElem? hc)) hm⟩

/-- In the tree of every text flags are raised above all malformed
places. -/
theorem flagged_parse (t : Text) : (parse t).Flagged := by
  apply Node.flagged_of_raises
  rw [walk_singleton, List.forall_mem_cons]
  refine ⟨fun h => h, ?_⟩
  apply Nest.forall_walk_finish (P := Node.Raises) (nest_sound t) (Nat.le_refl _)
  · intro n hn hraised
    rw [hn.flag, hraised]
  · exact fun f _ => rfl

-- =============================================================== both

open Traversal (start round)

/-- The walk and the search for malformed places do what recursion does,
whatever the tree. As loops over a stack they end within as many rounds as
the tree has nodes. The walk lists every node once, in document order, and
those of one kind are among them in that order. If flags are raised above
all malformed places, the search for those lists exactly the outermost ones
in document order, as the recursive search does that heeds no flags: every
malformed place is one of them or below one, and none of them is below
another. -/
theorem traversals_exact (root : Node) :
    (∀ k, root.count ≤ k →
        (round .everything)^[k] (start root) = ⟨[], walk [root]⟩
          ∧ (round .flagged)^[k] (start root) = ⟨[], faults [root]⟩)
      ∧ walk [root] = (Visit.everything.gather root).map Prod.snd
      ∧ root.Lists (fun _ _ => True) (walk [root])
      ∧ (∀ kind, root.Lists (fun _ m => m.kind = kind) (root.findAll kind))
      ∧ (root.Flagged → faults [root] = (Visit.outermost.gather root).map Prod.snd
          ∧ root.Lists root.Outermost (faults [root]))
      ∧ (∀ a m, root.at? a = some m → m.isFault = true →
          ∃ b n, b <+: a ∧ root.at? b = some n ∧ root.Outermost b n)
      ∧ ∀ a b m n, root.at? a = some m → root.at? b = some n → root.Outermost a m →
          root.Outermost b n → a <+: b → a = b := by
  refine ⟨?rounds, ?recursion, root.lists_walk, ?kinds, ?outermost, ?covered, ?apart⟩
  case rounds =>
    intro k hk
    have hstack : countAll (start root).stack ≤ k := by
      rw [start, countAll, countAll]
      exact hk
    constructor
    · rw [Traversal.iterate_round .everything hstack, Visit.walk_eq_found]
      rfl
    · rw [Traversal.iterate_round .flagged hstack, Visit.faults_eq_found]
      rfl
  case recursion => rw [Visit.walk_eq_found, Visit.found_singleton]
  case kinds =>
    intro kind
    apply (root.lists_walk.filter fun n => n.kind = kind).congr
    intro a m _
    simp
  case outermost =>
    intro hflagged
    have hfaults := Node.lists_faults hflagged
    exact ⟨hfaults.unique root.lists_outermost, hfaults⟩
  case covered => exact fun a m hm hfault => Node.exists_outermost hm hfault
  case apart => exact fun a b m n hm _ ha hb hbegins => ha.eq_of_begins hm hb hbegins

/-- A malformed place inside another one is walked over and not reported;
of two equal texts both are walked over. -/
theorem traversals_exact_nested :
    let inner : Node := .broken .fault 2 3
    let outer : Node := ⟨.fault, 1, 4, true, [inner]⟩
    let element : Node := .branch .element 0 5 [outer]
    let blank : Node := .leaf .text 5 5
    let missed : Node := .broken (.absent ['>']) 9 9
    let root : Node := .branch .document 0 9 [element, blank, blank, missed]
    root.Flagged
      ∧ walk [root] = [root, element, outer, inner, blank, blank, missed]
      ∧ faults [root] = [outer, missed]
      ∧ (round .flagged)^[7] (start root) = ⟨[], [outer, missed]⟩ := by
  intro inner outer element blank missed root
  obtain ⟨hrounds, hrecursion, -, -, houtermost, -, -⟩ := traversals_exact root
  have hwalk : walk [root] = [root, element, outer, inner, blank, blank, missed] := hrecursion
  have hflagged : root.Flagged := by
    apply Node.flagged_of_raises
    rw [hwalk]
    simp only [List.forall_mem_cons]
    exact ⟨fun _ => rfl, fun _ => rfl, fun _ => rfl, fun _ => rfl, nofun, nofun, fun _ => rfl,
      nofun⟩
  have hfaults : faults [root] = [outer, missed] := (houtermost hflagged).1
  refine ⟨hflagged, hwalk, hfaults, ?_⟩
  rw [← hfaults]
  exact (hrounds 7 (by decide)).2

end KeyHarvest.Markup
