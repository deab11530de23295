/-
Searches of a markup tree by recursion. What a search does is said of one
node at a time (`Visit`): whether it takes the node, and whether it enters
it, that is, goes on below it. `Visit.gather` is the search that follows:
the node itself, then its children one after the other.

Nodes are no objects with an identity, and a tree may hold equal ones. So
what is taken is listed with its address, the indices of the children on
the way down. A node comes before what is below it and before what stands
right of it, which is the lexicographic order of the addresses. A search
takes a node at an address exactly when it enters all above it
(`mem_gather`), and it lists what it takes in that order
(`pairwise_gather`). This says which list it gives (`Visit.lists_gather`),
and leaves no other (`Node.Lists.unique`).

# Induction

Nodes hold lists of nodes. `Node.forall_forest` is the induction for facts
about a node and about a list of nodes at once.
-/
import KeyHarvest.Markup.Node
import Mathlib.Data.List.Sort

namespace KeyHarvest.Markup

namespace Node

-- ========================================================== addresses

/-- The indices on the way down to a node. -/
abbrev Address := List Nat

/-- The node at an address below a node; the empty one is its own. -/
def at? : Address → Node → Option Node
  | [], n => some n
  | i :: a, n => n.children[i]?.bind (at? a)

/-- What holds of a node when it holds of its children, and of a list when
it holds of its members, holds of all. -/
theorem forall_forest {P : Node → Prop} {Q : List Node → Prop}
    (node : ∀ n, Q n.children → P n) (nil : Q []) (cons : ∀ n ns, P n → Q ns → Q (n :: ns))
    (n : Node) : P n := by
  refine node n ?_
  exact @Node.rec_1 P Q (fun kind start stop flawed children ih =>
    node ⟨kind, start, stop, flawed, children⟩ ih) nil cons n.children

/-- All nodes above an address are of a kind. -/
def AllAbove (P : Node → Prop) (root : Node) (a : Address) : Prop :=
  ∀ b m, b <+: a → b ≠ a → root.at? b = some m → P m

variable {P Q : Node → Prop} {n m : Node} {i : Nat} {a b : Address}

/-- Nothing stands above the root. -/
theorem allAbove_nil : n.AllAbove P [] := by
  intro b m hbegins hne
  exact absurd (List.prefix_nil.1 hbegins) hne

/-- Above an address below a child stand the root and what stands above it
there. -/
theorem allAbove_cons {c : Node} (hc : n.children[i]? = some c) :
    n.AllAbove P (i :: a) ↔ P n ∧ c.AllAbove P a := by
  have hdown : ∀ b, n.at? (i :: b) = c.at? b := by
    intro b
    rw [at?, hc]
    rfl
  constructor
  · intro h
    refine ⟨h [] n List.nil_prefix (List.cons_ne_nil i a).symm rfl, ?_⟩
    intro b m hbegins hne hm
    apply h (i :: b) m
    · exact List.cons_prefix_cons.2 ⟨rfl, hbegins⟩
    · simpa using hne
    · rw [hdown, hm]
  · intro h b m hbegins hne hm
    cases b with
    | nil =>
        obtain rfl : n = m := Option.some_inj.1 hm
        exact h.1
    | cons j b =>
        obtain ⟨rfl, hrest⟩ := List.cons_prefix_cons.1 hbegins
        rw [hdown] at hm
        exact h.2 b m hrest (by simpa using hne) hm

theorem AllAbove.imp (h : n.AllAbove P a) (himp : ∀ m, P m → Q m) : n.AllAbove Q a := by
  intro b m hbegins hne hm
  exact himp m (h b m hbegins hne hm)

end Node

open Node (Address AllAbove forall_forest allAbove_nil allAbove_cons)

-- ============================================================= visits

/-- What a search does at a node: whether it takes the node, and whether it
goes on below it. -/
structure Visit where
  takes : Node → Bool
  enters : Node → Bool

namespace Visit

/-- Every node is taken. -/
def everything : Visit := ⟨fun _ => true, fun _ => true⟩

/-- Malformed places are taken and not entered; all other nodes are
entered, with a flag or without. -/
def outermost : Visit := ⟨Node.isFault, fun n => !n.isFault⟩

/-- Malformed places are taken and not entered; of the other nodes only
those with a flag are. -/
def flagged : Visit := ⟨Node.isFault, fun n => !n.isFault && n.flawed⟩

mutual

/-- What a search takes of a tree, with addresses. -/
def gather (v : Visit) : Node → List (Address × Node)
  | ⟨kind, start, stop, flawed, children⟩ =>
      let n : Node := ⟨kind, start, stop, flawed, children⟩
      (if v.takes n then [([], n)] else [])
        ++ if v.enters n then gatherFrom v 0 children else []

/-- What a search takes of trees when the first of them has the index
`i`. -/
def gatherFrom (v : Visit) (i : Nat) : List Node → List (Address × Node)
  | [] => []
  | n :: ns => (gather v n).map (Prod.map (i :: ·) id) ++ gatherFrom v (i + 1) ns

end

variable {v : Visit} {n m : Node} {ns : List Node} {i : Nat} {a : Address}

theorem gather_eq (v : Visit) (n : Node) :
    v.gather n = (if v.takes n then [([], n)] else [])
      ++ if v.enters n then v.gatherFrom 0 n.children else [] := by
  cases n
  rw [gather]

-- ============================================================== order

/-- What is taken of trees is below them. -/
theorem exists_cons_of_mem_gatherFrom {p : Address × Node} (h : p ∈ v.gatherFrom i ns) :
    ∃ j b, p.1 = j :: b ∧ i ≤ j := by
  induction ns generalizing i with
  | nil =>
      rw [gatherFrom] at h
      cases h
  | cons n ns ih =>
      rw [gatherFrom, List.mem_append] at h
      cases h with
      | inl h =>
          obtain ⟨q, -, rfl⟩ := List.mem_map.1 h
          exact ⟨i, q.1, rfl, Nat.le_refl i⟩
      | inr h =>
          obtain ⟨j, b, hp, hij⟩ := ih h
          exact ⟨j, b, hp, by omega⟩

/-- A search lists what it takes in the order of the addresses, so nothing
twice. -/
theorem pairwise_gather (v : Visit) (n : Node) :
    ((v.gather n).map Prod.fst).Pairwise (· < ·) := by
  apply forall_forest (P := fun n => ((v.gather n).map Prod.fst).Pairwise (· < ·))
    (Q := fun ns => ∀ i, ((v.gatherFrom i ns).map Prod.fst).Pairwise (· < ·))
  case node =>
    intro n ih
    rw [gather_eq, List.map_append, List.pairwise_append]
    refine ⟨?_, ?_, ?_⟩
    · split
      · exact List.pairwise_singleton _ _
      · exact .nil
    · split
      · exact ih 0
      · exact .nil
    · intro a ha b hb
      -- the node itself is at the empty address, and all else is below it
      obtain ⟨p, hp, rfl⟩ := List.mem_map.1 ha
      obtain ⟨q, hq, rfl⟩ := List.mem_map.1 hb
      rw [List.mem_ite_nil_right] at hp hq
      obtain ⟨j, c, hc, -⟩ := exists_cons_of_mem_gatherFrom hq.2
      rw [List.mem_singleton.1 hp.2, hc]
      exact List.nil_lt_cons j c
  case nil =>
    intro i
    rw [gatherFrom]
    exact .nil
  case cons =>
    intro n ns hn hns i
    rw [gatherFrom, List.map_append, List.pairwise_append]
    refine ⟨?_, hns (i + 1), ?_⟩
    · rw [List.map_map, List.pairwise_map]
      rw [List.pairwise_map] at hn
      exact hn.imp fun hab => List.cons_lt_cons_self.2 hab
    · intro a ha b hb
      obtain ⟨p, hp, rfl⟩ := List.mem_map.1 ha
      obtain ⟨p', -, rfl⟩ := List.mem_map.1 hp
      obtain ⟨q, hq, rfl⟩ := List.mem_map.1 hb
      obtain ⟨j, c, hj, hij⟩ := exists_cons_of_mem_gatherFrom hq
      rw [hj]
      exact List.cons_lt_cons_iff.2 (.inl hij)

-- ========================================================= membership

/-- What a search takes of trees is what it takes of each of them. -/
theorem mem_gatherFrom {i : Nat} {ns : List Node} {a : Address} {m : Node} :
    (a, m) ∈ v.gatherFrom i ns
      ↔ ∃ j b c, a = (i + j) :: b ∧ ns[j]? = some c ∧ (b, m) ∈ v.gather c := by
  induction ns generalizing i with
  | nil =>
      rw [gatherFrom]
      simp
  | cons n ns ih =>
      rw [gatherFrom, List.mem_append, ih]
      constructor
      · intro h
        cases h with
        | inl h =>
            obtain ⟨⟨b, m'⟩, hmem, hp⟩ := List.mem_map.1 h
            cases hp
            exact ⟨0, b, n, rfl, rfl, hmem⟩
        | inr h =>
            obtain ⟨j, b, c, rfl, hc, hmem⟩ := h
            exact ⟨j + 1, b, c, by rw [Nat.add_right_comm, Nat.add_assoc], hc, hmem⟩
      · intro h
        obtain ⟨j, b, c, rfl, hc, hmem⟩ := h
        cases j with
        | zero =>
            obtain rfl : n = c := Option.some_inj.1 hc
            exact .inl (List.mem_map.2 ⟨(b, m), hmem, rfl⟩)
        | succ j => exact .inr ⟨j, b, c, by rw [Nat.add_right_comm, Nat.add_assoc], hc, hmem⟩

/-- A search takes what it `takes`, wherever it enters all above. -/
theorem mem_gather : (a, m) ∈ v.gather n
    ↔ n.at? a = some m ∧ v.takes m = true ∧ n.AllAbove (v.enters · = true) a := by
  induction a generalizing n with
  -- at the empty address only the node itself is taken
  | nil =>
      have hbelow : ([], m) ∉ v.gatherFrom 0 n.children := by
        intro h
        obtain ⟨j, b, hb, -⟩ := exists_cons_of_mem_gatherFrom h
        cases hb
      rw [gather_eq, List.mem_append, List.mem_ite_nil_right, List.mem_ite_nil_right,
        List.mem_singleton, Prod.mk.injEq]
      constructor
      · intro h
        cases h with
        | inl h =>
            obtain ⟨htakes, -, rfl⟩ := h
            exact ⟨rfl, htakes, allAbove_nil⟩
        | inr h => exact absurd h.2 hbelow
      · intro h
        obtain ⟨hm, htakes, -⟩ := h
        obtain rfl : n = m := Option.some_inj.1 hm
        exact .inl ⟨htakes, rfl, rfl⟩
  -- through the child that the address names first
  | cons i a ih =>
      rw [gather_eq, List.mem_append, List.mem_ite_nil_right, List.mem_ite_nil_right,
        List.mem_singleton, Prod.mk.injEq, mem_gatherFrom]
      constructor
      · intro h
        cases h with
        | inl h => exact absurd h.2.1 (List.cons_ne_nil i a)
        | inr h =>
            obtain ⟨henters, j, b, c, hab, hc, hmem⟩ := h
            rw [Nat.zero_add] at hab
            cases hab
            obtain ⟨hm, htakes, habove⟩ := ih.1 hmem
            refine ⟨?_, htakes, (allAbove_cons hc).2 ⟨henters, habove⟩⟩
            rw [Node.at?, hc]
            exact hm
      · intro h
        obtain ⟨hm, htakes, habove⟩ := h
        rw [Node.at?, Option.bind_eq_some_iff] at hm
        obtain ⟨c, hc, hm⟩ := hm
        obtain ⟨henters, habove⟩ := (allAbove_cons hc).1 habove
        exact .inr ⟨henters, i, a, c, by rw [Nat.zero_add], hc, ih.2 ⟨hm, htakes, habove⟩⟩

end Visit

-- ============================================================== lists

namespace Node

/-- A list of the nodes of a tree that have a property, each once and in
document order. Equal nodes at two addresses are two nodes. -/
def Lists (root : Node) (P : Address → Node → Prop) (ns : List Node) : Prop :=
  ∃ as : List Address, as.Pairwise (· < ·)
    ∧ (∀ a, a ∈ as ↔ ∃ m, root.at? a = some m ∧ P a m)
    ∧ as.map (root.at? ·) = ns.map some

variable {root : Node} {P Q : Address → Node → Prop} {ns ms : List Node}

/-- There is only one such list. -/
theorem Lists.unique (h : root.Lists P ns) (h' : root.Lists P ms) : ns = ms := by
  obtain ⟨as, hordered, hmem, hnodes⟩ := h
  obtain ⟨bs, hordered', hmem', hnodes'⟩ := h'
  have hsame : as = bs := hordered.eq_of_mem_iff hordered' fun a => by rw [hmem, hmem']
  rw [hsame, hnodes'] at hnodes
  exact (List.map_injective_iff.2 (Option.some_injective Node) hnodes).symm

theorem Lists.congr (h : root.Lists P ns)
    (hiff : ∀ a m, root.at? a = some m → (P a m ↔ Q a m)) : root.Lists Q ns := by
  obtain ⟨as, hordered, hmem, hnodes⟩ := h
  refine ⟨as, hordered, ?_, hnodes⟩
  intro a
  rw [hmem]
  exact exists_congr fun m => and_congr_right (hiff a m)

/-- Of the nodes that are listed, those with one more property. -/
theorem Lists.filter (h : root.Lists P ns) (p : Node → Bool) :
    root.Lists (fun a m => P a m ∧ p m = true) (ns.filter p) := by
  obtain ⟨as, hordered, hmem, hnodes⟩ := h
  refine ⟨as.filter fun a => (root.at? a).any p, hordered.filter _, ?_, ?_⟩
  · intro a
    rw [List.mem_filter, hmem]
    constructor
    · intro ha
      obtain ⟨⟨m, hm, hP⟩, hp⟩ := ha
      rw [hm] at hp
      exact ⟨m, hm, hP, hp⟩
    · intro ha
      obtain ⟨m, hm, hP, hp⟩ := ha
      refine ⟨⟨m, hm, hP⟩, ?_⟩
      rw [hm]
      exact hp
  · calc (as.filter fun a => (root.at? a).any p).map (root.at? ·)
      _ = (as.map (root.at? ·)).filter (Option.any p) := by rw [List.filter_map]; rfl
      _ = (ns.map some).filter (Option.any p) := by rw [hnodes]
      _ = (ns.filter p).map some := by rw [List.filter_map]; rfl

end Node

/-- A search lists the nodes that it `takes`, wherever it enters all
above. -/
theorem Visit.lists_gather (v : Visit) (root : Node) :
    root.Lists (fun a m => v.takes m = true ∧ root.AllAbove (v.enters · = true) a)
      ((v.gather root).map Prod.snd) := by
  refine ⟨(v.gather root).map Prod.fst, v.pairwise_gather root, ?_, ?_⟩
  · intro a
    simp only [List.mem_map, Prod.exists, exists_and_right, exists_eq_right]
    exact exists_congr fun m => mem_gather
  · rw [List.map_map, List.map_map]
    apply List.map_congr_left
    intro p hp
    exact (mem_gather.1 hp).1

end KeyHarvest.Markup
