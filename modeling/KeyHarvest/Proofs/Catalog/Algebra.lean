/-
The laws of catalogs, with the order of their keys. Uniting is associative
and has the empty catalog as its unit, although it is not symmetric: a key
of both sides keeps the place that it has on the left and takes the value
that it has on the right. Replacing values and selecting by key may be done
before uniting or behind it (`ordered_map_laws`).

Every equation is one between catalogs, so it says that the order agrees
and that the values do. The two are shown one after the other, from the
equations for `keys` and `get?`.

# Sorting

What a catalog is sorted by may hold both ways between different keys
(`IsOrder`); such keys stay as they were. Sorted stably is a property of
two catalogs (`StablySorted`), said without the sort.
-/
import KeyHarvest.Proofs.Catalog.History
import KeyHarvest.Proofs.Catalog.Sort
import Mathlib.Order.Defs.LinearOrder

namespace KeyHarvest.Catalog

-- ============================================================ uniting

section Uniting

variable (a b c : Catalog)

/-- Three catalogs are united in any grouping. -/
theorem union_assoc : (a.union b).union c = a.union (b.union c) := by
  refine ext_of_keys ?_ fun k => ?_
  · rw [keys_union, keys_union, keys_union, keys_union, eraseDups_append_left,
      eraseDups_append_right, List.append_assoc]
  · rw [get?_union, get?_union, get?_union, get?_union, Option.or_assoc]

/-- A catalog united with an empty one is itself. -/
theorem empty_union : empty.union a = a := by
  refine ext_of_keys ?_ fun k => ?_
  · rw [keys_union]
    exact eraseDups_of_nodup a.nodup_keys
  · rw [get?_union, get?_empty, Option.or_none]

theorem union_empty : a.union empty = a := rfl

/-- A catalog united with itself is itself. -/
theorem union_self : a.union a = a := by
  refine ext_of_keys ?_ fun k => ?_
  · rw [keys_union, eraseDups_append_of_subset (List.Subset.refl _),
      eraseDups_of_nodup a.nodup_keys]
  · rw [get?_union, Option.or_self]

/-- The keys on the left stay where they are, and those that are new stand
behind them. -/
theorem keys_union_eq_append :
    (a.union b).keys = a.keys ++ b.keys.filter fun k => k ∉ a.keys := by
  have hnew : b.keys.removeAll a.keys = b.keys.filter fun k => k ∉ a.keys := by
    refine List.filter_congr fun k _ => ?_
    rw [Bool.eq_iff_iff]
    simp
  rw [keys_union, List.eraseDups_append, hnew, eraseDups_of_nodup a.nodup_keys,
    eraseDups_of_nodup (b.nodup_keys.filter _)]

/-- Values are changed before a union or after it. -/
theorem map_union (f : Text → Text → Text) :
    (a.union b).map f = (a.map f).union (b.map f) := by
  refine ext_of_keys ?_ fun k => ?_
  · rw [keys_map, keys_union, keys_union, keys_map, keys_map]
  · rw [get?_map, get?_union, get?_union, get?_map, get?_map, Option.map_or]

/-- The keys that a test of keys lets pass. -/
theorem keys_filter (p : Text → Bool) : (a.filter fun k _ => p k).keys = a.keys.filter p :=
  List.filter_map.symm

/-- A test that looks at the value would see the value on the left in a
part of the union, and the one on the right in the whole. -/
theorem filter_union (p : Text → Bool) :
    (a.union b).filter (fun k _ => p k)
      = (a.filter fun k _ => p k).union (b.filter fun k _ => p k) := by
  refine ext_of_keys ?_ fun k => ?_
  · rw [keys_filter, keys_union, keys_union, keys_filter, keys_filter, filter_eraseDups,
      List.filter_append]
  · rw [get?_filter, get?_union, get?_union, get?_filter, get?_filter]
    cases b.get? k with
    | none => rfl
    | some v =>
        by_cases hp : p k = true
        · simp [Option.filter, hp]
        · cases a.get? k <;> simp [Option.filter, hp]

theorem insertKeys_append (ks ls : List Text) :
    a.insertKeys (ks ++ ls) = (a.insertKeys ks).insertKeys ls :=
  List.foldl_append

end Uniting

-- ============================================================ sorting

/-- An order by which catalogs are sorted. Keys that it holds between both
ways are tied. -/
structure IsOrder (le : Text → Text → Bool) : Prop where
  trans : ∀ x y z, le x y = true → le y z = true → le x z = true
  total : ∀ x y, (le x y || le y x) = true

/-- The order of keys by what a function gives for each. -/
def byKey {κ : Type*} [LinearOrder κ] (key : Text → κ) (x y : Text) : Bool := key x ≤ key y

/-- Whether keys are tied in an order. -/
def tied (le : Text → Text → Bool) (x y : Text) : Bool := le x y && le y x

/-- A catalog that holds the same entries as another one in the order of
their keys, those of tied keys as they stand there. -/
structure StablySorted (le : Text → Text → Bool) (c s : Catalog) : Prop where
  perm : s.entries.Perm c.entries
  same : ∀ k, s.get? k = c.get? k
  sorted : s.keys.Pairwise fun x y => le x y = true
  stable : ∀ x, s.keys.filter (tied le x) = c.keys.filter (tied le x)

/-- Keys are in an order when they are compared by something that is. -/
theorem isOrder_byKey {κ : Type*} [LinearOrder κ] (key : Text → κ) : IsOrder (byKey key) where
  trans x y z hxy hyz := decide_eq_true ((of_decide_eq_true hxy).trans (of_decide_eq_true hyz))
  total x y := by
    rcases le_total (key x) (key y) with h | h
    · simp [byKey, h]
    · simp [byKey, h]

/-- Texts are ordered by code points. -/
theorem isOrder_le : IsOrder Text.le := ⟨fun _ _ _ => Text.le_trans, Text.le_total⟩

variable {le : Text → Text → Bool}

/-- The keys of a sorted catalog are its keys, sorted. -/
theorem keys_sortBy (c : Catalog) (le : Text → Text → Bool) :
    (c.sortBy le).keys = c.keys.mergeSort le :=
  List.map_mergeSort fun _ _ _ _ => rfl

/-- Keys that are tied with one key are in order, however they stand. -/
theorem IsOrder.pairwise_tied (h : IsOrder le) (x : Text) (ks : List Text) :
    (ks.filter (tied le x)).Pairwise fun y z => le y z = true := by
  refine List.pairwise_of_forall_mem_list fun y hy z hz => ?_
  have hyx := (Bool.and_eq_true_iff.1 (List.mem_filter.1 hy).2).2
  have hxz := (Bool.and_eq_true_iff.1 (List.mem_filter.1 hz).2).1
  exact h.trans y x z hyx hxz

/-- Sorting a catalog is stable, whatever order it is sorted by. -/
theorem stablySorted_sortBy (h : IsOrder le) (c : Catalog) :
    StablySorted le c (c.sortBy le) where
  perm := List.mergeSort_perm c.entries _
  same k := get?_sortBy c k le
  sorted := by
    rw [keys_sortBy]
    exact List.pairwise_mergeSort h.trans h.total c.keys
  stable x := by
    rw [keys_sortBy]
    -- tied keys are a row in order, and such a row outlives the sort
    have hrow : (c.keys.filter (tied le x)).Sublist (c.keys.mergeSort le) :=
      List.sublist_mergeSort h.trans h.total (h.pairwise_tied x c.keys) List.filter_sublist
    have hkept := hrow.filter (tied le x)
    rw [List.filter_filter] at hkept
    simp only [Bool.and_self] at hkept
    have hlength := ((List.mergeSort_perm c.keys le).filter (tied le x)).length_eq
    exact (hkept.eq_of_length hlength.symm).symm

/-- What is in order stays as it is. -/
theorem sortBy_of_sorted {s : Catalog} (h : s.keys.Pairwise fun x y => le x y = true) :
    s.sortBy le = s := by
  refine ext_of_keys ?_ fun k => get?_sortBy s k le
  rw [keys_sortBy, List.mergeSort_of_pairwise h]

/-- A catalog that is sorted stays as it is when it is sorted again. -/
theorem sortBy_sortBy (h : IsOrder le) (c : Catalog) :
    (c.sortBy le).sortBy le = c.sortBy le :=
  sortBy_of_sorted (stablySorted_sortBy h c).sorted

-- =============================================================== laws

/-- The laws of catalogs. Uniting is associative with the empty catalog as
its unit, and changes nothing when it repeats a catalog; the keys on the
left come first, in their order, and then those that are new. Values are
replaced and keys selected before uniting or behind it. Lists of keys may
be written in a row. Sorting by any function of the keys, or by the keys
themselves, keeps what there is, leaves tied keys as they were, and changes
nothing the second time. -/
theorem ordered_map_laws (a b c : Catalog) :
    (a.union b).union c = a.union (b.union c)
      ∧ (empty.union a = a ∧ a.union empty = a ∧ a.union a = a)
      ∧ (a.union b).keys = a.keys ++ b.keys.filter (fun k => k ∉ a.keys)
      ∧ (∀ f, (a.union b).map f = (a.map f).union (b.map f))
      ∧ (∀ p : Text → Bool, (a.union b).filter (fun k _ => p k)
          = (a.filter fun k _ => p k).union (b.filter fun k _ => p k))
      ∧ (∀ ks ls, a.insertKeys (ks ++ ls) = (a.insertKeys ks).insertKeys ls)
      ∧ (∀ {κ : Type*} [LinearOrder κ] (key : Text → κ),
          StablySorted (byKey key) a (a.sortBy (byKey key))
            ∧ (a.sortBy (byKey key)).sortBy (byKey key) = a.sortBy (byKey key))
      ∧ StablySorted Text.le a a.sort ∧ a.sort.sort = a.sort := by
  refine ⟨union_assoc a b c, ⟨empty_union a, union_empty a, union_self a⟩,
    keys_union_eq_append a b, map_union a b, filter_union a b, insertKeys_append a, ?_, ?_, ?_⟩
  · intro κ _ key
    have horder := isOrder_byKey key
    exact ⟨stablySorted_sortBy horder a, sortBy_sortBy horder a⟩
  · exact stablySorted_sortBy isOrder_le a
  · exact sortBy_sortBy isOrder_le a

/-- A key of both sides stays in its place on the left and takes its value
from the right, so uniting is not symmetric. -/
example :
    ((empty.insert ['a'] ['1']).insert ['b'] ['2']).union
        ((empty.insert ['b'] ['3']).insert ['a'] ['4'])
      = (empty.insert ['a'] ['4']).insert ['b'] ['3'] :=
  rfl

end KeyHarvest.Catalog
