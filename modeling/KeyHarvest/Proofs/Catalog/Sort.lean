/-
Sorted catalogs. Sorting by code point leaves nothing open: the keys of a
catalog are distinct, so they stand in one strictly increasing row
(`pairwise_keys_sort`), and that row is decided by which keys there are
(`keys_sort_congr`). With their values, two catalogs that are equal as
partial maps become one and the same (`sort_congr`).

# The order

`Text.compare` is lexicographic on the numbers of code points. `Before` is
its strict part without the test: at the first place where two texts
differ the first has the lower code point, or it ends there.
-/
import KeyHarvest.Proofs.Catalog.Lookup

namespace KeyHarvest

-- ============================================================== order

namespace Text

/-- The strict order of texts by code point. -/
def Before (a b : Text) : Prop := List.Lex (fun c d => c.val < d.val) a b

variable {a b c : Text}

/-- Texts are compared like the lists of the numbers of their code points.
-/
theorem compare_eq_compareLex (a b : Text) :
    compare a b = List.compareLex (compareOn CodePoint.val) a b := by
  induction a generalizing b with
  | nil =>
      cases b with
      | nil => rfl
      | cons d b => rfl
  | cons c a ih =>
      cases b with
      | nil => rfl
      | cons d b =>
          rw [compare, ih, List.compareLex_cons_cons]
          rfl

/-- The order of texts is transitive. -/
theorem le_trans (hab : le a b = true) (hbc : le b c = true) : le a c = true := by
  rw [le, compare_eq_compareLex] at hab hbc ⊢
  exact Std.TransCmp.isLE_trans hab hbc

/-- Of two texts one comes first, or they are the same. -/
theorem le_total (a b : Text) : (le a b || le b a) = true := by
  have hswap : compare b a = (compare a b).swap := by
    rw [compare_eq_compareLex, compare_eq_compareLex]
    exact Std.OrientedCmp.eq_swap
  rw [le, le, hswap]
  cases compare a b <;> rfl

/-- Of two texts in order the first comes before the second, or they are
the same. -/
theorem before_or_eq_of_le (h : le a b = true) : Before a b ∨ a = b := by
  induction a generalizing b with
  | nil =>
      cases b with
      | nil => exact .inr rfl
      | cons d b => exact .inl .nil
  | cons c a ih =>
      cases b with
      | nil => cases h
      | cons d b =>
          rw [le, compare] at h
          rcases Nat.lt_trichotomy c.val d.val with hlt | heq | hgt
          · exact .inl (.rel hlt)
          · obtain rfl := CodePoint.ext heq
            rw [Nat.compare_eq_eq.2 rfl] at h
            rcases ih h with hbefore | rfl
            · exact .inl (.cons hbefore)
            · exact .inr rfl
          · rw [Nat.compare_eq_gt.2 hgt] at h
            cases h

/-- No two texts come before each other. -/
theorem Before.asymm (h : Before a b) : ¬ Before b a := by
  induction h with
  | nil => exact List.not_lex_nil
  | @rel c a d b hlt =>
      intro h
      cases h with
      | rel hgt => exact Nat.lt_asymm hlt hgt
      | cons _ => exact Nat.lt_irrefl _ hlt
  | cons _ ih =>
      intro h
      cases h with
      | rel hlt => exact Nat.lt_irrefl _ hlt
      | cons h => exact ih h

end Text

-- ============================================================ sorting

namespace Catalog

/-- Sorting a catalog moves its keys and changes none. -/
theorem keys_sort_perm (c : Catalog) : c.sort.keys.Perm c.keys :=
  (List.mergeSort_perm c.entries _).map Prod.fst

/-- A sorted catalog is looked up like the unsorted one. -/
theorem get?_sort (c : Catalog) (k : Text) : c.sort.get? k = c.get? k := get?_sortBy c k Text.le

/-- The keys of a sorted catalog are strictly increasing. -/
theorem pairwise_keys_sort (c : Catalog) : c.sort.keys.Pairwise Text.Before := by
  have hle : c.sort.entries.Pairwise fun e f => Text.le e.1 f.1 = true :=
    @List.pairwise_mergeSort _ (fun e f => Text.le e.1 f.1) (fun _ _ _ => Text.le_trans)
      (fun e f => Text.le_total e.1 f.1) c.entries
  have hsorted : c.sort.keys.Pairwise fun a b => Text.le a b = true := List.pairwise_map.2 hle
  refine (hsorted.and c.sort.nodup_keys).imp ?_
  intro a b h
  exact (Text.before_or_eq_of_le h.1).resolve_right h.2

/-- The keys of a sorted catalog depend on nothing but which there are. -/
theorem keys_sort_congr {c d : Catalog} (h : ∀ k, k ∈ c.keys ↔ k ∈ d.keys) :
    c.sort.keys = d.sort.keys := by
  have hperm : c.sort.keys.Perm d.sort.keys := by
    refine (List.perm_ext_iff_of_nodup c.sort.nodup_keys d.sort.nodup_keys).2 fun k => ?_
    rw [c.keys_sort_perm.mem_iff, d.keys_sort_perm.mem_iff, h k]
  refine hperm.eq_of_pairwise ?_ c.pairwise_keys_sort d.pairwise_keys_sort
  intro a b _ _ hab hba
  exact absurd hba hab.asymm

/-- Catalogs that are equal as partial maps are equal when sorted. -/
theorem sort_congr {c d : Catalog} (h : ∀ k, c.get? k = d.get? k) : c.sort = d.sort := by
  refine ext_of_keys (keys_sort_congr fun k => ?_) fun k => ?_
  · rw [mem_keys, mem_keys, h k]
  · rw [get?_sort, get?_sort, h k]

end Catalog

end KeyHarvest
