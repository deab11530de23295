/-
Whole runs of operations on catalogs. A run makes catalogs one after the
other: each operation reads some of those made before and makes a new one.
Run on partial maps in place of catalogs, the same operations make the
maps that the catalogs represent (`history_refines`): a run is followed
step by step, and one step is the equation of its operation.

# The order of keys

Partial maps know no order. What the order of a new catalog is, sorting
apart, is one law for all operations (`Operation.Keeps`). An operation
starts from a catalog and writes some keys: first come the keys of that
catalog that are still there, in their order and whether overwritten or
not, and then the keys that are new, each where it was first written.
-/
import KeyHarvest.Proofs.Catalog.Lookup
import Mathlib.Data.Set.Card

namespace KeyHarvest.Catalog

-- ========================================================= operations

/-- An operation on catalogs, which it names by their places in the run.
A place where none was made yet stands for the empty catalog. -/
inductive Operation where
  | new (es : List (Text × Text))
  | insert (c : Nat) (key value : Text)
  | insertKeys (c : Nat) (ks : List Text)
  | erase (c : Nat) (key : Text)
  | filter (c : Nat) (p : Text → Text → Bool)
  | map (c : Nat) (f : Text → Text → Text)
  | union (c d : Nat)
  | inter (c d : Nat)
  | sort (c : Nat) (le : Text → Text → Bool)

/-- A partial map from keys to values. -/
abbrev PartialMap := Text → Option Text

namespace Operation

/-- The catalog that an operation makes from those made before. -/
def make (made : List Catalog) : Operation → Catalog
  | .new es => ofList es
  | .insert c key value => (made.getD c empty).insert key value
  | .insertKeys c ks => (made.getD c empty).insertKeys ks
  | .erase c key => (made.getD c empty).erase key
  | .filter c p => (made.getD c empty).filter p
  | .map c f => (made.getD c empty).map f
  | .union c d => (made.getD c empty).union (made.getD d empty)
  | .inter c d => (made.getD c empty).inter (made.getD d empty)
  | .sort c le => (made.getD c empty).sortBy le

/-- The map that is empty everywhere. -/
def nowhere : PartialMap := fun _ => none

/-- The partial map that an operation makes from those made before. Of two
maps the second wins, and of several values of a key the last. -/
def denote (made : List PartialMap) : Operation → PartialMap
  | .new es => fun k => es.reverse.lookup k
  | .insert c key value => fun k => if k = key then some value else made.getD c nowhere k
  | .insertKeys c ks => fun k => if k ∈ ks then some [] else made.getD c nowhere k
  | .erase c key => fun k => if k = key then none else made.getD c nowhere k
  | .filter c p => fun k => (made.getD c nowhere k).filter (p k)
  | .map c f => fun k => (made.getD c nowhere k).map (f k)
  | .union c d => fun k => (made.getD d nowhere k).or (made.getD c nowhere k)
  | .inter c d => fun k => (made.getD c nowhere k).bind fun _ => made.getD d nowhere k
  | .sort c _ => made.getD c nowhere

/-- The run of operations, each of which makes one thing more. -/
def run {α : Type} (make : List α → Operation → α) (made : List α) (ops : List Operation) :
    List α :=
  ops.foldl (fun made op => made ++ [make made op]) made

/-- The catalogs that operations make. -/
def catalogs (ops : List Operation) : List Catalog := run make [] ops

/-- The partial maps that operations make. -/
def maps (ops : List Operation) : List PartialMap := run denote [] ops

/-- The catalog that an operation starts from. -/
def base (made : List Catalog) : Operation → Catalog
  | .new _ => empty
  | .insert c _ _ | .insertKeys c _ | .erase c _ | .filter c _ | .map c _ | .union c _
  | .inter c _ | .sort c _ => made.getD c empty

/-- The keys that an operation writes, in order. -/
def written (made : List Catalog) : Operation → List Text
  | .new es => Entries.keys es
  | .insert _ key _ => [key]
  | .insertKeys _ ks => ks
  | .union _ d => (made.getD d empty).keys
  | .erase _ _ | .filter _ _ | .map _ _ | .inter _ _ | .sort _ _ => []

/-- The operations that may change the order of keys. -/
def Reorders : Operation → Prop
  | .sort _ _ => True
  | _ => False

/-- The order of the keys of a new catalog: those it had before and still
has, as they were, and behind them the new ones as they were written. -/
def Keeps (made : List Catalog) (op : Operation) (c : Catalog) : Prop :=
  c.keys = (op.base made).keys.filter c.contains
    ++ ((op.written made).filter fun k => !(op.base made).contains k).eraseDups

end Operation

-- ================================================================ order

variable {b c d : Catalog}

/-- The test for a key tells whether it is there. -/
theorem contains_iff {k : Text} : c.contains k = true ↔ k ∈ c.keys := mem_keys.symm

/-- Writing keys keeps those that are there. -/
theorem keys_of_written {ks : List Text} (h : c.keys = (b.keys ++ ks).eraseDups) :
    c.keys = b.keys.filter c.contains ++ (ks.filter fun k => !b.contains k).eraseDups := by
  have hall : b.keys.filter c.contains = b.keys := by
    rw [List.filter_eq_self]
    intro k hk
    rw [contains_iff, h, List.mem_eraseDups]
    exact List.mem_append_left ks hk
  have hnew : ks.removeAll b.keys = ks.filter fun k => !b.contains k := by
    refine List.filter_congr fun k _ => ?_
    have hmem : b.keys.elem k = b.contains k := by
      rw [Bool.eq_iff_iff, List.elem_iff, contains_iff]
    rw [← hmem]
  rw [hall, h, List.eraseDups_append, eraseDups_of_nodup b.nodup_keys, hnew]

/-- Keys that were all there before, in the same order, are those that are
still there. -/
theorem keys_of_sublist (h : c.keys.Sublist b.keys) : c.keys = b.keys.filter c.contains := by
  have hself : c.keys.filter c.contains = c.keys := by
    rw [List.filter_eq_self]
    intro k hk
    exact contains_iff.2 hk
  have hsub : c.keys.Sublist (b.keys.filter c.contains) := by
    rw [← hself]
    exact h.filter _
  have hback : b.keys.filter c.contains ⊆ c.keys := by
    intro k hk
    exact contains_iff.1 (List.mem_filter.1 hk).2
  have hnodup : (b.keys.filter c.contains).Nodup := b.nodup_keys.filter _
  exact hsub.eq_of_length_le (hnodup.subperm hback).length_le

/-- A filter leaves out keys and moves none. -/
theorem keys_filter_sublist (c : Catalog) (p : Text → Text → Bool) :
    (c.filter p).keys.Sublist c.keys :=
  List.filter_sublist.map Prod.fst

/-- Changing the values leaves the keys as they are. -/
theorem keys_map (c : Catalog) (f : Text → Text → Text) : (c.map f).keys = c.keys := by
  show ((c.entries.map _).map Prod.fst) = c.entries.map Prod.fst
  rw [List.map_map]
  rfl

/-- What two catalogs share is in the order of the first. -/
theorem keys_inter_sublist (c d : Catalog) : (c.inter d).keys.Sublist c.keys := by
  rw [inter, keys_map]
  exact keys_filter_sublist c _

namespace Operation

/-- Every operation that does not sort obeys the law of order. -/
theorem keeps_make (made : List Catalog) {op : Operation} (h : ¬ op.Reorders) :
    op.Keeps made (op.make made) := by
  have hkept : ∀ {b c : Catalog}, c.keys.Sublist b.keys →
      c.keys = b.keys.filter c.contains
        ++ (([] : List Text).filter fun k => !b.contains k).eraseDups := by
    intro b c hsub
    rw [List.filter_nil, List.eraseDups_nil, List.append_nil]
    exact keys_of_sublist hsub
  cases op with
  | new es => exact keys_of_written (keys_insertAll empty es)
  | insert c key value => exact keys_of_written (keys_insert _ key value)
  | insertKeys c ks => exact keys_of_written (keys_insertKeys _ ks)
  | erase c key => exact hkept (keys_filter_sublist _ _)
  | filter c p => exact hkept (keys_filter_sublist _ p)
  | map c f => exact hkept (keys_map (made.getD c empty) f ▸ List.Sublist.refl _)
  | union c d => exact keys_of_written (keys_union _ _)
  | inter c d => exact hkept (keys_inter_sublist _ _)
  | sort c le => exact absurd trivial h

end Operation

-- ========================================================= refinement

/-- A catalog stands for a partial map: it has distinct keys, and it
answers as the map does what the value of a key is, whether there is one,
and how many there are. -/
structure Represents (c : Catalog) (m : PartialMap) : Prop where
  nodup : c.keys.Nodup
  get : ∀ k, c.get? k = m k
  has : ∀ k, c.contains k = (m k).isSome
  count : Set.encard {k | m k ≠ none} = c.size

/-- A catalog represents what its look-ups give. -/
theorem represents_of_get? {m : PartialMap} (h : ∀ k, c.get? k = m k) : Represents c m where
  nodup := c.nodup_keys
  get := h
  has := by
    intro k
    rw [← h k]
    rfl
  count := by
    have hdomain : {k | m k ≠ none} = (c.keys.toFinset : Set Text) := by
      ext k
      rw [Set.mem_ofPred_eq, ← h k, ← Option.isSome_iff_ne_none, ← mem_keys, List.coe_toFinset]
      rfl
    have hcard : c.keys.toFinset.card = c.size := by
      rw [List.toFinset_card_of_nodup c.nodup_keys]
      exact List.length_map _
    rw [hdomain, Set.encard_coe_eq_coe_finsetCard, hcard]

namespace Operation

/-- A catalog of a history is looked up like the map at the same place. -/
theorem get?_getD {cs : List Catalog} {ms : List PartialMap} (h : List.Forall₂ Represents cs ms)
    (i : Nat) (k : Text) : (cs.getD i empty).get? k = ms.getD i nowhere k := by
  induction h generalizing i with
  | nil => rfl
  | cons hcm _ ih =>
      cases i with
      | zero => exact hcm.get k
      | succ i => exact ih i

/-- One operation makes from catalogs what it makes from the maps that
they represent. -/
theorem represents_make {cs : List Catalog} {ms : List PartialMap}
    (h : List.Forall₂ Represents cs ms) (op : Operation) :
    Represents (op.make cs) (op.denote ms) := by
  refine represents_of_get? fun k => ?_
  have hread := fun i => get?_getD h i k
  cases op with
  | new es => exact get?_ofList k es
  | insert c key value => rw [make, denote, get?_insert, hread]
  | insertKeys c ks => rw [make, denote, get?_insertKeys, hread]
  | erase c key => rw [make, denote, get?_erase, hread]
  | filter c p => rw [make, denote, get?_filter, hread]
  | map c f => rw [make, denote, get?_map, hread]
  | union c d => rw [make, denote, get?_union, hread, hread]
  | inter c d => rw [make, denote, get?_inter, hread, hread]
  | sort c le => rw [make, denote, get?_sortBy, hread]

/-- A run on catalogs goes along with the run on partial maps. -/
theorem forall₂_run {cs : List Catalog} {ms : List PartialMap}
    (h : List.Forall₂ Represents cs ms) (ops : List Operation) :
    List.Forall₂ Represents (run make cs ops) (run denote ms ops) := by
  induction ops generalizing cs ms with
  | nil => exact h
  | cons op ops ih =>
      refine ih (List.rel_append h ?_)
      exact .cons (represents_make h op) .nil

/-- A run adds to what was made before, one thing for each operation. -/
theorem exists_run_eq {α : Type} (make : List α → Operation → α) (made : List α)
    (ops : List Operation) :
    ∃ more, run make made ops = made ++ more ∧ more.length = ops.length := by
  induction ops generalizing made with
  | nil => exact ⟨[], (List.append_nil made).symm, rfl⟩
  | cons op ops ih =>
      obtain ⟨more, hrun, hlen⟩ := ih (made ++ [make made op])
      refine ⟨make made op :: more, ?_, congrArg (· + 1) hlen⟩
      rw [List.append_cons]
      exact hrun

/-- Every operation adds one catalog to the history. -/
theorem length_catalogs (ops : List Operation) : (catalogs ops).length = ops.length := by
  obtain ⟨more, hrun, hlen⟩ := exists_run_eq make [] ops
  rw [catalogs, hrun]
  exact hlen

/-- What an operation in the middle of a run makes stands behind what was
made before it, and stays. -/
theorem exists_catalogs_eq (before : List Operation) (op : Operation) (after : List Operation) :
    ∃ more, catalogs (before ++ op :: after)
      = catalogs before ++ op.make (catalogs before) :: more := by
  obtain ⟨more, hrun, -⟩ :=
    exists_run_eq make (catalogs before ++ [op.make (catalogs before)]) after
  refine ⟨more, ?_⟩
  have hstep : catalogs (before ++ op :: after)
      = run make (catalogs before ++ [op.make (catalogs before)]) after := List.foldl_append
  rw [hstep, hrun, ← List.append_cons]

/-- Operations on any number of catalogs do what they do on partial maps.
After every run each catalog represents the map that the same operations
make. In every run, each operation leaves the catalogs made before it as
they were, and unless it sorts, the new catalog has the keys that are left
of the one it starts from, in their order, and then the new ones, in the
order of their first occurrence. -/
theorem history_refines (ops : List Operation) :
    (catalogs ops).length = ops.length
    ∧ List.Forall₂ Represents (catalogs ops) (maps ops)
    ∧ ∀ before op after, ops = before ++ op :: after →
        (catalogs ops).take before.length = catalogs before
        ∧ ∃ c, (catalogs ops)[before.length]? = some c
          ∧ (¬ op.Reorders → op.Keeps (catalogs before) c) := by
  refine ⟨length_catalogs ops, forall₂_run .nil ops, ?_⟩
  intro before op after hops
  obtain ⟨more, hmore⟩ := exists_catalogs_eq before op after
  rw [hops, hmore, ← length_catalogs before]
  refine ⟨List.take_left, op.make (catalogs before), ?_, keeps_make (catalogs before)⟩
  rw [List.getElem?_append_right (Nat.le_refl _), Nat.sub_self]
  rfl

/-- A catalog from entries with a repeated key, a union that overwrites one
key of it and adds another, and the first catalog after that. -/
theorem history_refines_union :
    let first : List (Text × Text) := [("b", "1"), ("a", "2"), ("b", "3")]
    let ops : List Operation := [.new first, .insert 5 "c" [], .insert 1 "a" "4", .union 0 2]
    (catalogs ops).take 3 = catalogs (ops.take 3)
      ∧ ¬ (Operation.union 0 2).Reorders
      ∧ ∃ c, (catalogs ops)[3]? = some c ∧ (Operation.union 0 2).Keeps (catalogs (ops.take 3)) c
        ∧ c.keys = ["b", "a", "c"].map Text.ofString ∧ c.get? "b" = some "3"
        ∧ c.get? "a" = some "4" := by
  intro first ops
  obtain ⟨-, hmaps, hsteps⟩ := history_refines ops
  obtain ⟨hbefore, c, hc, horder⟩ := hsteps (ops.take 3) (.union 0 2) [] rfl
  refine ⟨hbefore, id, c, hc, horder id, ?_⟩
  have hmade : (catalogs ops)[3]? = some (make (catalogs (ops.take 3)) (.union 0 2)) := rfl
  obtain rfl := Option.some.inj (hc.symm.trans hmade)
  decide +kernel

end Operation

end KeyHarvest.Catalog
