/-
Document order. A node of a template has an address: the index of its
root among the nodes, then the index of a child at every step down. A
node comes before what is inside it and before what stands right of it,
which is the lexicographic order of the addresses.

`preorderFrom` lists the nodes of a template with their addresses. It is
in document order (`pairwise_preorderFrom`), and it lists every node that
has an address, and nothing else (`mem_preorderFrom`); these two facts
leave no other such list.

# Induction

Nodes hold lists of nodes. `Node.forall_forest` is the induction for
facts about a node and about a list of nodes at once.
-/
import KeyHarvest.Template.Node

namespace KeyHarvest.Template

-- ========================================================== addresses

/-- The indices on the way down to a node. -/
abbrev Address := List Nat

/-- The nodes directly inside a node. -/
def Node.children : Node → List Node
  | .element _ _ _ _ _ children _ => children
  | .template _ _ children _ => children
  | .text _ => []
  | .boundText _ => []

/-- The node at an address below a node; the empty one is its own. -/
def Node.at? : Address → Node → Option Node
  | [], n => some n
  | i :: a, n => n.children[i]?.bind (at? a)

/-- The node at an address in a template. -/
def at? (ns : List Node) : Address → Option Node
  | [] => none
  | i :: a => ns[i]?.bind (Node.at? a)

/-- What holds of a node when it holds of its children, and of a list when
it holds of its members, holds of all. -/
theorem Node.forall_forest {P : Node → Prop} {Q : List Node → Prop}
    (node : ∀ n, Q n.children → P n) (nil : Q []) (cons : ∀ n ns, P n → Q ns → Q (n :: ns))
    (ns : List Node) : Q ns :=
  @Node.rec_1 P Q (fun value => node (.text value) nil) (fun value => node (.boundText value) nil)
    (fun name plain inputs outputs references children line ih =>
      node (.element name plain inputs outputs references children line) ih)
    (fun tag attributes children line ih => node (.template tag attributes children line) ih)
    nil cons ns

-- ============================================================== order

/-- An address one step further up. -/
def under (i : Nat) (p : Address × Node) : Address × Node := (i :: p.1, p.2)

mutual

/-- A node and all inside it, with their addresses below it. -/
def Node.preorder : Node → List (Address × Node)
  | .element name plain inputs outputs references children line =>
      ([], .element name plain inputs outputs references children line) :: preorderFrom 0 children
  | .template tag attributes children line =>
      ([], .template tag attributes children line) :: preorderFrom 0 children
  | .text value => [([], .text value)]
  | .boundText value => [([], .boundText value)]

/-- Nodes and all inside them, with their addresses, when the first of
them has the index `i`. -/
def preorderFrom (i : Nat) : List Node → List (Address × Node)
  | [] => []
  | n :: ns => n.preorder.map (under i) ++ preorderFrom (i + 1) ns

end

theorem Node.preorder_eq (n : Node) : n.preorder = ([], n) :: preorderFrom 0 n.children := by
  cases n with
  | element => rw [preorder]; rfl
  | template => rw [preorder]; rfl
  | text => rw [preorder, children, preorderFrom]
  | boundText => rw [preorder, children, preorderFrom]

/-- Addresses begin at the first index. -/
theorem exists_cons_of_mem_preorderFrom {i : Nat} {ns : List Node} {p : Address × Node}
    (h : p ∈ preorderFrom i ns) : ∃ j a, p.1 = j :: a ∧ i ≤ j := by
  induction ns generalizing i with
  | nil =>
      rw [preorderFrom] at h
      cases h
  | cons n ns ih =>
      rw [preorderFrom, List.mem_append] at h
      rcases h with h | h
      · obtain ⟨q, -, rfl⟩ := List.mem_map.1 h
        exact ⟨i, q.1, rfl, Nat.le_refl i⟩
      · obtain ⟨j, a, hp, hij⟩ := ih h
        exact ⟨j, a, hp, by omega⟩

/-- The nodes of a template are listed in the order of their addresses. -/
theorem pairwise_preorderFrom (ns : List Node) (i : Nat) :
    ((preorderFrom i ns).map Prod.fst).Pairwise (· < ·) := by
  refine Node.forall_forest (P := fun n => (n.preorder.map Prod.fst).Pairwise (· < ·))
    (Q := fun ns => ∀ i, ((preorderFrom i ns).map Prod.fst).Pairwise (· < ·)) ?_ ?_ ?_ ns i
  · intro n ih
    rw [Node.preorder_eq, List.map_cons, List.pairwise_cons]
    refine ⟨fun a ha => ?_, ih 0⟩
    obtain ⟨p, hp, rfl⟩ := List.mem_map.1 ha
    obtain ⟨j, b, hb, -⟩ := exists_cons_of_mem_preorderFrom hp
    rw [hb]
    exact List.nil_lt_cons j b
  · intro i
    rw [preorderFrom]
    exact .nil
  · intro n ns hn hns i
    rw [preorderFrom, List.map_append, List.pairwise_append]
    refine ⟨?_, hns (i + 1), ?_⟩
    · have hmap : (n.preorder.map (under i)).map Prod.fst
          = (n.preorder.map Prod.fst).map (i :: ·) := by
        rw [List.map_map, List.map_map]
        rfl
      rw [hmap, List.pairwise_map]
      exact hn.imp fun hab => List.cons_lt_cons_self.2 hab
    · intro a ha b hb
      obtain ⟨p, hp, rfl⟩ := List.mem_map.1 ha
      obtain ⟨p', -, rfl⟩ := List.mem_map.1 hp
      obtain ⟨q, hq, rfl⟩ := List.mem_map.1 hb
      obtain ⟨j, b, hj, hij⟩ := exists_cons_of_mem_preorderFrom hq
      rw [hj]
      exact List.cons_lt_cons_iff.2 (.inl hij)

/-- The nodes of a template that are listed are those at its addresses. -/
theorem mem_preorderFrom {ns : List Node} {i : Nat} {a : Address} {n : Node} :
    (a, n) ∈ preorderFrom i ns ↔ ∃ j b, a = (i + j) :: b ∧ at? ns (j :: b) = some n := by
  refine Node.forall_forest
    (P := fun x => ∀ a n, (a, n) ∈ x.preorder ↔ x.at? a = some n)
    (Q := fun ns => ∀ i a n,
      (a, n) ∈ preorderFrom i ns ↔ ∃ j b, a = (i + j) :: b ∧ at? ns (j :: b) = some n)
    ?_ ?_ ?_ ns i a n
  · intro x ih a n
    rw [Node.preorder_eq, List.mem_cons, ih]
    cases a with
    | nil => simp [Node.at?, eq_comm]
    | cons j b =>
        constructor
        · intro h
          rcases h with h | ⟨k, c, habc, hc⟩
          · cases h
          · rw [Nat.zero_add] at habc
            cases habc
            exact hc
        · intro h
          exact .inr ⟨j, b, by rw [Nat.zero_add], h⟩
  · intro i a n
    rw [preorderFrom]
    simp [at?]
  · intro x ns hx hns i a n
    rw [preorderFrom, List.mem_append, hns]
    constructor
    · intro h
      rcases h with h | ⟨j, b, rfl, hb⟩
      · obtain ⟨⟨b, y⟩, hy, hp⟩ := List.mem_map.1 h
        cases hp
        exact ⟨0, b, rfl, (hx b y).1 hy⟩
      · exact ⟨j + 1, b, by rw [Nat.add_right_comm, Nat.add_assoc], hb⟩
    · rintro ⟨j, b, rfl, hb⟩
      cases j with
      | zero => exact .inl (List.mem_map.2 ⟨(b, n), (hx b n).2 hb, rfl⟩)
      | succ j => exact .inr ⟨j, b, by rw [Nat.add_right_comm, Nat.add_assoc], hb⟩

end KeyHarvest.Template
