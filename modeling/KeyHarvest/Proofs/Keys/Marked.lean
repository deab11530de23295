/-
The meaning of marked elements. The keys of a template are said without
the walk that collects them: the marked elements in document order, for
each the keys it gives and where they come from, and of keys that repeat
the first.

`Gives` has one rule for each of the three sources of keys. They exclude
one another and leave nothing out, so every element has exactly one
source (`gives_iff`); of the attributes with the right name only the first
counts, for plain ones and for bound ones alike (`IsFirst`).
-/
import KeyHarvest.Keys.Marked
import KeyHarvest.Proofs.Catalog.Insert
import KeyHarvest.Proofs.Template.Order
import KeyHarvest.Proofs.Text.Scalar

namespace KeyHarvest.MarkedKeys

open Template

variable {m : MarkedKeys}

-- ============================================================ sources

/-- Where the keys of an element come from: its plain attribute, its bound
one, or the text inside it. -/
inductive Origin where
  | plain
  | bound
  | text
  deriving DecidableEq, Repr

/-- The first member of a list with a property. -/
def IsFirst {α : Type} (p : α → Prop) (l : List α) (x : α) : Prop :=
  ∃ before after, l = before ++ x :: after ∧ p x ∧ ∀ y ∈ before, ¬ p y

/-- The first plain attribute with the key name, if there is one, has no
value. -/
def Unkeyed (m : MarkedKeys) (plain : List TextAttribute) : Prop :=
  ∀ a, IsFirst (·.name = m.keyAttribute) plain a → a.value = []

/-- The texts directly inside a node. -/
def directTexts (children : List Node) : List Text :=
  children.filterMap fun n => match n with
    | .text value => some value
    | _ => none

/-- The keys of an element and their origin. -/
inductive Gives (m : MarkedKeys) : Node → Origin → List Text → Prop where
  | plain {name : Text} {plain : List TextAttribute} {inputs : List BoundAttribute}
      {outputs : List BoundEvent} {references : List Reference} {children : List Node} {line : Nat}
      {a : TextAttribute} (ha : IsFirst (·.name = m.keyAttribute) plain a) (hv : a.value ≠ []) :
      Gives m (.element name plain inputs outputs references children line) .plain [a.value]
  | bound {name : Text} {plain : List TextAttribute} {inputs : List BoundAttribute}
      {outputs : List BoundEvent} {references : List Reference} {children : List Node} {line : Nat}
      {b : BoundAttribute} (ha : m.Unkeyed plain)
      (hb : IsFirst (·.name = m.keyAttribute) inputs b) :
      Gives m (.element name plain inputs outputs references children line) .bound
        (b.value.literals.filterMap Literal.key?)
  | text {name : Text} {plain : List TextAttribute} {inputs : List BoundAttribute}
      {outputs : List BoundEvent} {references : List Reference} {children : List Node} {line : Nat}
      (ha : m.Unkeyed plain) (hb : ∀ b ∈ inputs, b.name ≠ m.keyAttribute) :
      Gives m (.element name plain inputs outputs references children line) .text
        ((directTexts children).map Text.trim)

/-- The first element with a property is the one a search finds. -/
theorem isFirst_iff {α : Type} {p : α → Prop} [DecidablePred p] {l : List α} {x : α} :
    IsFirst p l x ↔ l.find? (fun y => p y) = some x := by
  rw [List.find?_eq_some_iff_append]
  constructor
  · intro h
    obtain ⟨before, after, hl, hx, hbefore⟩ := h
    exact ⟨decide_eq_true hx, before, after, hl, fun y hy => by simpa using hbefore y hy⟩
  · intro h
    obtain ⟨hx, before, after, hl, hbefore⟩ := h
    exact ⟨before, after, hl, of_decide_eq_true hx, fun y hy => by simpa using hbefore y hy⟩

/-- The plain texts among children, trimmed. -/
theorem filterMap_plainText? (children : List Node) :
    children.filterMap plainText? = (directTexts children).map Text.trim := by
  rw [directTexts, List.map_filterMap]
  congr 1
  funext n
  cases n <;> rfl

/-- Where the keys of an element with these attributes come from. -/
def originOf (m : MarkedKeys) (plain : List TextAttribute) (inputs : List BoundAttribute) :
    Origin :=
  match plain.find? (·.name = m.keyAttribute) with
  | some ⟨_, _ :: _⟩ => .plain
  | _ =>
      match inputs.find? (·.name = m.keyAttribute) with
      | some _ => .bound
      | none => .text

variable {plain : List TextAttribute} (inputs : List BoundAttribute) (children : List Node)

/-- A plain attribute that gives the key gives it alone. -/
theorem source_of_isFirst {a : TextAttribute} (ha : IsFirst (·.name = m.keyAttribute) plain a)
    (hv : a.value ≠ []) :
    m.originOf plain inputs = .plain ∧ m.ownKeys plain inputs children = [a.value] := by
  rw [isFirst_iff] at ha
  obtain ⟨n, value⟩ := a
  cases value with
  | nil => exact absurd rfl hv
  | cons c cs =>
      unfold originOf ownKeys
      rw [ha]
      exact ⟨rfl, rfl⟩

/-- Without such an attribute the bound one gives the keys, or the texts do.
-/
theorem source_of_unkeyed (ha : m.Unkeyed plain) :
    m.originOf plain inputs
        = (match inputs.find? (·.name = m.keyAttribute) with
          | some _ => .bound
          | none => .text)
      ∧ m.ownKeys plain inputs children
        = (match inputs.find? (·.name = m.keyAttribute) with
          | some b => b.value.literals.filterMap Literal.key?
          | none => children.filterMap plainText?) := by
  unfold originOf ownKeys
  cases hfind : plain.find? (·.name = m.keyAttribute) with
  | none => exact ⟨rfl, rfl⟩
  | some a =>
      have hempty := ha a (isFirst_iff.2 hfind)
      obtain ⟨n, value⟩ := a
      cases hempty
      exact ⟨rfl, rfl⟩

variable {inputs children}

/-- An element gives its keys from one source, and gives no others. -/
theorem gives_iff {name : Text} {outputs : List BoundEvent} {references : List Reference}
    {line : Nat} {o : Origin} {ks : List Text} :
    Gives m (.element name plain inputs outputs references children line) o ks
      ↔ o = m.originOf plain inputs ∧ ks = m.ownKeys plain inputs children := by
  constructor
  · intro h
    cases h with
    | plain ha hv =>
        obtain ⟨ho, hk⟩ := source_of_isFirst inputs children ha hv
        exact ⟨ho.symm, hk.symm⟩
    | bound ha hb =>
        obtain ⟨ho, hk⟩ := source_of_unkeyed inputs children ha
        rw [isFirst_iff] at hb
        rw [ho, hk, hb]
        exact ⟨rfl, rfl⟩
    | text ha hb =>
        obtain ⟨ho, hk⟩ := source_of_unkeyed inputs children ha
        have hnone : inputs.find? (·.name = m.keyAttribute) = none := by
          rw [List.find?_eq_none]
          intro b hmem
          simpa using hb b hmem
        rw [ho, hk, hnone, filterMap_plainText?]
        exact ⟨rfl, rfl⟩
  · intro h
    obtain ⟨rfl, rfl⟩ := h
    by_cases ha : m.Unkeyed plain
    · obtain ⟨ho, hk⟩ := source_of_unkeyed inputs children ha
      rw [ho, hk]
      cases hb : inputs.find? (·.name = m.keyAttribute) with
      | some b => exact .bound ha (isFirst_iff.2 hb)
      | none =>
          simp only [filterMap_plainText?]
          refine .text ha fun b hmem => ?_
          simpa using List.find?_eq_none.1 hb b hmem
    · -- the first attribute of the name has a value, so it gives the key
      unfold Unkeyed at ha
      simp only [Classical.not_forall] at ha
      obtain ⟨a, hfirst, hv⟩ := ha
      obtain ⟨ho, hk⟩ := source_of_isFirst inputs children hfirst hv
      rw [ho, hk]
      exact .plain hfirst hv

-- ====================================================== contributions

/-- The elements that are searched for. -/
inductive Marks (m : MarkedKeys) : Node → Prop where
  | element {name : Text} {plain : List TextAttribute} {inputs : List BoundAttribute}
      {outputs : List BoundEvent} {references : List Reference} {children : List Node} {line : Nat}
      (h : name ∈ m.tagNames) :
      Marks m (.element name plain inputs outputs references children line)

/-- A marked element: its place, and the keys it gives from one of the
sources. -/
structure Contribution where
  address : Address
  node : Node
  origin : Origin
  keys : List Text

/-- The source of a node and the keys from it, if it is a marked
element. -/
def source? (m : MarkedKeys) : Node → Option (Origin × List Text)
  | .element name plain inputs _ _ children _ =>
      if m.tagNames.contains name then
        some (m.originOf plain inputs, m.ownKeys plain inputs children)
      else none
  | _ => none

/-- What the node at a place contributes. -/
def contribution? (m : MarkedKeys) (p : Address × Node) : Option Contribution :=
  (m.source? p.2).map fun s => ⟨p.1, p.2, s.1, s.2⟩

/-- The contributions to a template in document order. -/
def contributions (m : MarkedKeys) (ns : List Node) : List Contribution :=
  (preorderFrom 0 ns).filterMap m.contribution?

/-- A node that is read for its keys is marked, and gives what is read. -/
theorem source?_eq_some {n : Node} {s : Origin × List Text} (h : m.source? n = some s) :
    m.Marks n ∧ ∀ o ks, Gives m n o ks ↔ o = s.1 ∧ ks = s.2 := by
  cases n with
  | element name plain inputs outputs references children line =>
      rw [source?] at h
      by_cases hname : m.tagNames.contains name = true
      · rw [if_pos hname] at h
        cases h
        exact ⟨.element (by simpa using hname), fun o ks => gives_iff⟩
      · rw [if_neg hname] at h
        cases h
  | _ => cases h

/-- Every marked node is read for its keys. -/
theorem exists_source?_of_marks {n : Node} (h : m.Marks n) : ∃ s, m.source? n = some s := by
  obtain ⟨hname⟩ := h
  exact ⟨_, if_pos (by simpa using hname)⟩

/-- A contribution names its node and gives what the node gives. -/
theorem contribution?_eq_some {p : Address × Node} {x : Contribution}
    (h : m.contribution? p = some x) :
    x.address = p.1 ∧ x.node = p.2 ∧ m.source? x.node = some (x.origin, x.keys) := by
  obtain ⟨s, hs, rfl⟩ := Option.map_eq_some_iff.1 h
  exact ⟨rfl, rfl, hs⟩

/-- Contributions come in document order, each from a place of its own. -/
theorem pairwise_contributions (ns : List Node) :
    ((m.contributions ns).map Contribution.address).Pairwise (· < ·) := by
  have horder := pairwise_preorderFrom ns 0
  rw [List.pairwise_map] at horder
  rw [contributions, List.pairwise_map, List.pairwise_filterMap]
  refine horder.imp ?_
  intro p q hpq x hx y hy
  rw [(contribution?_eq_some hx).1, (contribution?_eq_some hy).1]
  exact hpq

/-- Every marked element contributes, at any depth, and nothing else. -/
theorem exists_contribution_iff {ns : List Node} {a : Address} {n : Node} :
    (∃ x ∈ m.contributions ns, x.address = a ∧ x.node = n) ↔ at? ns a = some n ∧ m.Marks n := by
  have hlisted : (a, n) ∈ preorderFrom 0 ns ↔ at? ns a = some n := by
    rw [mem_preorderFrom]
    constructor
    · intro h
      obtain ⟨j, b, rfl, hb⟩ := h
      rwa [Nat.zero_add]
    · intro h
      cases a with
      | nil => cases h
      | cons j b => exact ⟨j, b, by rw [Nat.zero_add], h⟩
  rw [← hlisted]
  constructor
  · intro h
    obtain ⟨x, hx, rfl, rfl⟩ := h
    obtain ⟨p, hp, hpx⟩ := List.mem_filterMap.1 hx
    obtain ⟨haddress, hnode, hsource⟩ := contribution?_eq_some hpx
    refine ⟨?_, (source?_eq_some hsource).1⟩
    rw [haddress, hnode]
    exact hp
  · intro h
    obtain ⟨hmem, hmarks⟩ := h
    obtain ⟨s, hs⟩ := exists_source?_of_marks hmarks
    refine ⟨⟨a, n, s.1, s.2⟩, List.mem_filterMap.2 ⟨(a, n), hmem, ?_⟩, rfl, rfl⟩
    rw [contribution?, hs]
    rfl

/-- A contribution has one source, and all its keys from there. -/
theorem gives_of_mem_contributions {ns : List Node} {x : Contribution}
    (h : x ∈ m.contributions ns) (o : Origin) (ks : List Text) :
    Gives m x.node o ks ↔ o = x.origin ∧ ks = x.keys := by
  obtain ⟨p, -, hpx⟩ := List.mem_filterMap.1 h
  obtain ⟨-, -, hsource⟩ := contribution?_eq_some hpx
  exact (source?_eq_some hsource).2 o ks

-- =============================================================== keys

/-- The keys that a node gives for itself. -/
def keysHere (m : MarkedKeys) (n : Node) : List Text := ((m.source? n).map Prod.snd).getD []

/-- The keys of a node come before those below it. -/
theorem nodeKeys_eq (n : Node) : m.nodeKeys n = m.keysHere n ++ m.nodesKeys n.children := by
  cases n with
  | element name plain inputs outputs references children line =>
      rw [nodeKeys, keysHere, source?]
      by_cases hname : m.tagNames.contains name = true
      · rw [if_pos hname, if_pos hname]
        rfl
      · rw [if_neg hname, if_neg hname]
        rfl
  | template => rw [nodeKeys]; rfl
  | text => rw [nodeKeys, Node.children, nodesKeys]; rfl
  | boundText => rw [nodeKeys, Node.children, nodesKeys]; rfl

/-- The walk over a template gathers what its nodes give, in document
order. -/
theorem nodesKeys_eq (ns : List Node) (i : Nat) :
    m.nodesKeys ns = (preorderFrom i ns).flatMap fun p => m.keysHere p.2 := by
  refine Node.forall_forest
    (P := fun n => m.nodeKeys n = n.preorder.flatMap fun p => m.keysHere p.2)
    (Q := fun ns => ∀ i, m.nodesKeys ns = (preorderFrom i ns).flatMap fun p => m.keysHere p.2)
    ?_ ?_ ?_ ns i
  · intro n ih
    rw [nodeKeys_eq, Node.preorder_eq, List.flatMap_cons, ih 0]
  · intro i
    rw [nodesKeys, preorderFrom, List.flatMap_nil]
  · intro n ns hn hns i
    rw [nodesKeys, preorderFrom, List.flatMap_append, List.flatMap_map, hn, hns (i + 1)]
    rfl

/-- Keys taken from the contributions are those taken from the nodes. -/
theorem flatMap_contributions (ns : List Node) :
    (m.contributions ns).flatMap Contribution.keys = m.nodesKeys ns := by
  rw [nodesKeys_eq ns 0, contributions]
  induction preorderFrom 0 ns with
  | nil => rfl
  | cons p l ih =>
      rw [List.flatMap_cons, keysHere, ← ih]
      cases hs : m.source? p.2 with
      | none =>
          rw [List.filterMap_cons_none (by rw [contribution?, hs]; rfl)]
          rfl
      | some s =>
          rw [List.filterMap_cons_some (by rw [contribution?, hs]; rfl), List.flatMap_cons]
          rfl

/-- The keys of a template that is accepted: those of its marked elements
in document order, each element from one source, later repetitions left
out, and all with empty values. A template is a text that can be encoded,
as it is handed to the grammar of markup in that form. -/
theorem extract_eq_contributions {path source : Text} {nodes : List Node}
    (hpath : Script.isComponentFile path = false) (_hsource : Text.Scalar source)
    (h : Template.parse path source = .ok nodes) :
    ∃ (c : Catalog) (xs : List Contribution), m.extract path source = .ok c
      ∧ (xs.map Contribution.address).Pairwise (· < ·)
      ∧ (∀ a n, (∃ x ∈ xs, x.address = a ∧ x.node = n) ↔ at? nodes a = some n ∧ m.Marks n)
      ∧ (∀ x ∈ xs, ∀ o ks, Gives m x.node o ks ↔ o = x.origin ∧ ks = x.keys)
      ∧ c.keys = (xs.flatMap Contribution.keys).eraseDups
      ∧ ∀ e ∈ c.entries, e.2 = [] := by
  refine ⟨Catalog.empty.insertKeys (m.nodesKeys nodes), m.contributions nodes, ?_,
    pairwise_contributions nodes, fun a n => exists_contribution_iff,
    fun x hx => gives_of_mem_contributions hx, ?_, Catalog.value_of_mem_insertKeys nofun⟩
  · have htemplate : templateOf path source = source := by
      rw [templateOf, hpath]
      rfl
    rw [extract, htemplate, h]
    rfl
  · rw [Catalog.keys_empty_insertKeys, flatMap_contributions]

/-- A marked element under a structural directive, whose key attribute is
empty, and one inside another, which repeats its key. -/
theorem extract_eq_contributions_nested :
    let m : MarkedKeys := ⟨[['t']], ['k']⟩
    let source : Text := "<p *a><t k=''> b </t></p><t k=c><t>b</t></t>"
    Script.isComponentFile [] = false ∧ Text.Scalar source ∧ ∃ nodes, Template.parse [] source = .ok nodes
      ∧ ∃ (c : Catalog) (xs : List Contribution), m.extract [] source = .ok c
        ∧ (xs.map Contribution.address).Pairwise (· < ·)
        ∧ (∀ a n, (∃ x ∈ xs, x.address = a ∧ x.node = n) ↔ at? nodes a = some n ∧ m.Marks n)
        ∧ (∀ x ∈ xs, ∀ o ks, Gives m x.node o ks ↔ o = x.origin ∧ ks = x.keys)
        ∧ c.keys = (xs.flatMap Contribution.keys).eraseDups ∧ (∀ e ∈ c.entries, e.2 = [])
        ∧ c.keys = [Text.ofString "b", Text.ofString "c"] := by
  intro m source
  have hpath : Script.isComponentFile [] = false := by decide +kernel
  have hsource : Text.Scalar source := by decide
  have hkeys : (m.extract [] source).toOption.map Catalog.keys
      = some [Text.ofString "b", Text.ofString "c"] := by
    decide +kernel
  cases hparse : Template.parse [] source with
  | error e =>
      have hfail : m.extract [] source = .error e := by
        show (Template.parse [] source >>= _) = _
        rw [hparse]
        rfl
      rw [hfail] at hkeys
      cases hkeys
  | ok nodes =>
      obtain ⟨c, xs, hc, horder, hmarked, hgives, hall, hvalues⟩ :=
        extract_eq_contributions (m := m) hpath hsource hparse
      rw [hc] at hkeys
      exact ⟨hpath, hsource, nodes, rfl, c, xs, hc, horder, hmarked, hgives, hall, hvalues,
        Option.some.inj hkeys⟩

end KeyHarvest.MarkedKeys
