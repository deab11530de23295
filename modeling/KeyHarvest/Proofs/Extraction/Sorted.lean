/-
The sorted report does not depend on the order in which files are
searched. A report unites what its files give; which keys it has is a
matter of set union (`mem_keys_merged`), and sorting leaves only one row of
them. So the files may come in any order, and the row is the same
(`sorted_keys_of_perm`).

Searches find keys without values. Of such catalogs the union is the same
map in any order, and then the sorted catalogs are equal, not only their
keys.
-/
import KeyHarvest.Command.Outcome
import KeyHarvest.Proofs.Catalog.Sort

namespace KeyHarvest

/-- The member of an object under a name. -/
def Json.Value.member? (name : Text) : Json.Value → Option Json.Value
  | .object members => members.lookup name
  | _ => none

-- ============================================================= values

namespace Catalog

/-- A catalog whose values are all empty, as searches give them. -/
def Unvalued (c : Catalog) : Prop := ∀ e ∈ c.entries, e.2 = []

/-- Every value of such a catalog is empty. -/
theorem Unvalued.get? {c : Catalog} (h : c.Unvalued) {k v : Text} (hv : c.get? k = some v) :
    v = [] :=
  h (k, v) (mem_entries.2 hv)

/-- The union of two catalogs without values has none. -/
theorem Unvalued.union {c d : Catalog} (hc : c.Unvalued) (hd : d.Unvalued) :
    (c.union d).Unvalued := by
  intro e he
  have hget : (c.union d).get? e.1 = some e.2 := mem_entries.1 he
  rw [get?_union, Option.or_eq_some_iff] at hget
  rcases hget with hget | hget
  · exact hd.get? hget
  · exact hc.get? hget.2

/-- Catalogs without values are equal as maps when they have the same
keys. -/
theorem Unvalued.get?_congr {c d : Catalog} (hc : c.Unvalued) (hd : d.Unvalued)
    (h : ∀ k, k ∈ c.keys ↔ k ∈ d.keys) (k : Text) : c.get? k = d.get? k := by
  have hk := h k
  rw [mem_keys, mem_keys] at hk
  cases hck : c.get? k with
  | none =>
      cases hdk : d.get? k with
      | none => rfl
      | some w =>
          rw [hck, hdk] at hk
          cases hk.2 rfl
  | some v =>
      cases hdk : d.get? k with
      | none =>
          rw [hck, hdk] at hk
          cases hk.1 rfl
      | some w => rw [hc.get? hck, hd.get? hdk]

/-- A key of a union is one of either side. -/
theorem mem_keys_union {c d : Catalog} {k : Text} :
    k ∈ (c.union d).keys ↔ k ∈ c.keys ∨ k ∈ d.keys := by
  rw [keys_union, List.mem_eraseDups, List.mem_append]

end Catalog

-- ============================================================ reports

namespace Report

/-- The report over files that gave these harvests, in this order. -/
def merged (hs : List Harvest) : Report := hs.foldl add .empty

/-- One file more adds its keys, and no others. -/
theorem mem_keys_foldl_add {k : Text} (hs : List Harvest) (r : Report) :
    k ∈ (hs.foldl add r).keys.keys ↔ k ∈ r.keys.keys ∨ ∃ h ∈ hs, k ∈ h.keys.keys := by
  induction hs generalizing r with
  | nil => simp
  | cons h hs ih =>
      have hadd : k ∈ (r.add h).keys.keys ↔ k ∈ r.keys.keys ∨ k ∈ h.keys.keys :=
        Catalog.mem_keys_union
      rw [List.foldl_cons, ih, hadd]
      simp [or_assoc]

/-- A report has the keys that occur in some file. -/
theorem mem_keys_merged {k : Text} {hs : List Harvest} :
    k ∈ (merged hs).keys.keys ↔ ∃ h ∈ hs, k ∈ h.keys.keys := by
  rw [merged, mem_keys_foldl_add]
  exact or_iff_right List.not_mem_nil

/-- A report keeps having no values when what is added has none. -/
theorem unvalued_foldl_add {hs : List Harvest} (h : ∀ x ∈ hs, x.keys.Unvalued) {r : Report}
    (hr : r.keys.Unvalued) : (hs.foldl add r).keys.Unvalued := by
  induction hs generalizing r with
  | nil => exact hr
  | cons x hs ih =>
      obtain ⟨hx, hs⟩ := List.forall_mem_cons.1 h
      exact ih hs (hr.union hx)

/-- The order of files does not matter to which keys there are. -/
theorem mem_keys_merged_perm {hs hs' : List Harvest} (hperm : hs'.Perm hs) (k : Text) :
    k ∈ (merged hs').keys.keys ↔ k ∈ (merged hs).keys.keys := by
  rw [mem_keys_merged, mem_keys_merged]
  exact exists_congr fun h => and_congr_left fun _ => hperm.mem_iff

/-- Searched in whatever order, files give one sorted report: its keys are
strictly increasing by code point, and they are those that occur in some
file. Without values the sorted catalogs are equal as a whole. And sorting
forgets the order of a catalog: equal maps have equal entries in order. -/
theorem sorted_keys_of_perm {hs hs' : List Harvest} (hperm : hs'.Perm hs) :
    (∃ ks : List Text,
      ((merged hs).toJson true).member? "keys" = some (.list (ks.map .text))
        ∧ ((merged hs').toJson true).member? "keys" = some (.list (ks.map .text))
        ∧ ks.Pairwise Text.Before ∧ ∀ k, k ∈ ks ↔ ∃ h ∈ hs, k ∈ h.keys.keys)
    ∧ ((∀ h ∈ hs, h.keys.Unvalued) → (merged hs').keys.sort = (merged hs).keys.sort)
    ∧ ∀ c d : Catalog, (∀ k, c.get? k = d.get? k) → c.sort.entries = d.sort.entries := by
  have hsame := mem_keys_merged_perm hperm
  refine ⟨⟨(merged hs).keys.sort.keys, rfl, ?_, (merged hs).keys.pairwise_keys_sort, ?_⟩, ?_, ?_⟩
  · rw [← Catalog.keys_sort_congr hsame]
    rfl
  · intro k
    rw [(merged hs).keys.keys_sort_perm.mem_iff, mem_keys_merged]
  · intro hempty
    have hempty' : ∀ h ∈ hs', h.keys.Unvalued := fun h hh => hempty h (hperm.mem_iff.1 hh)
    have hnone : Report.empty.keys.Unvalued := List.forall_mem_nil _
    exact Catalog.sort_congr ((unvalued_foldl_add hempty' hnone).get?_congr
      (unvalued_foldl_add hempty hnone) hsame)
  · intro c d h
    rw [Catalog.sort_congr h]

/-- Two files with a key in common, the second of which failed a search, in
either order. -/
theorem sorted_keys_of_perm_pair :
    let hs : List Harvest := [⟨.ofList [("b", []), ("a", [])], []⟩,
      ⟨.ofList [("a", []), ("c", [])], [⟨"y.html", "tag", "y.html:1:1: Unexpected"⟩]⟩]
    hs.reverse.Perm hs ∧ (∀ h ∈ hs, h.keys.Unvalued)
      ∧ (merged hs.reverse).keys.sort = (merged hs).keys.sort
      ∧ (merged hs).keys.keys ≠ (merged hs.reverse).keys.keys
      ∧ ∃ ks : List Text, ((merged hs.reverse).toJson true).member? "keys"
          = some (.list (ks.map .text))
        ∧ ks.Pairwise Text.Before ∧ Text.ofString "b" ∈ ks := by
  intro hs
  have hperm : hs.reverse.Perm hs := List.reverse_perm hs
  have hempty : ∀ h ∈ hs, h.keys.Unvalued := by
    unfold Catalog.Unvalued
    decide
  obtain ⟨⟨ks, -, hkeys, hsorted, hmem⟩, hsame, -⟩ := sorted_keys_of_perm hperm
  refine ⟨hperm, hempty, hsame hempty, by decide, ks, hkeys, hsorted, (hmem _).2 ?_⟩
  exact ⟨_, List.mem_cons_self, by decide⟩

end Report

end KeyHarvest
