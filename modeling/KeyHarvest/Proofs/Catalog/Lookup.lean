/-
What the operations on catalogs do to the value of a key. Through `get?` a
catalog is a partial map, and every operation is one on partial maps:
writing changes the value of the keys written, a selection forgets some,
and order plays no part. There is one equation for each operation.

A catalog is its keys in their order and the value of each
(`ext_of_keys`), so with the equations for `keys` these say all there is
to say about an operation.
-/
import KeyHarvest.Proofs.Catalog.Insert

namespace KeyHarvest

-- ============================================================ entries

namespace Entries

variable {es fs : List (Text × Text)}

/-- The first entry decides, or the others do. -/
theorem lookup_cons (e : Text × Text) (es : List (Text × Text)) (k : Text) :
    (e :: es).lookup k = if k = e.1 then some e.2 else es.lookup k := by
  rw [List.lookup_cons]
  by_cases hk : k = e.1
  · rw [if_pos hk, beq_iff_eq.2 hk]
  · rw [if_neg hk, beq_eq_false_iff_ne.2 hk]

/-- Writing changes the value of one key. -/
theorem lookup_put (key value k : Text) (es : List (Text × Text)) :
    (put key value es).lookup k = if k = key then some value else es.lookup k := by
  induction es with
  | nil => rw [put, lookup_cons]
  | cons e es ih =>
      rw [put]
      by_cases he : e.1 = key
      · rw [if_pos he, lookup_cons, lookup_cons, he]
        by_cases hk : k = key
        · rw [if_pos hk, if_pos hk]
        · rw [if_neg hk, if_neg hk, if_neg hk]
      · rw [if_neg he, lookup_cons, lookup_cons, ih]
        by_cases hk : k = key
        · have hne : ¬ k = e.1 := fun h => he (h.symm.trans hk)
          rw [if_neg hne, if_pos hk, if_pos hk]
        · rw [if_neg hk, if_neg hk]

/-- The key of an entry is one of the keys. -/
theorem mem_keys_of_mem {k v : Text} (h : (k, v) ∈ es) : k ∈ keys es :=
  List.mem_map_of_mem h

/-- With distinct keys, the value of a key is the one it has anywhere. -/
theorem lookup_eq_some (hnodup : (keys es).Nodup) {k v : Text} :
    es.lookup k = some v ↔ (k, v) ∈ es := by
  induction es with
  | nil => simp
  | cons e es ih =>
      obtain ⟨key, value⟩ := e
      obtain ⟨hnew, hrest⟩ := List.nodup_cons.1 hnodup
      rw [lookup_cons, List.mem_cons, Prod.mk.injEq]
      by_cases hk : k = key
      · subst hk
        have habsent : (k, v) ∉ es := fun h => hnew (mem_keys_of_mem h)
        simp [habsent, eq_comm]
      · rw [if_neg hk, ih hrest]
        simp [hk]

/-- With distinct keys, the order of entries does not matter to values. -/
theorem lookup_perm (hnodup : (keys es).Nodup) (h : fs.Perm es) (k : Text) :
    fs.lookup k = es.lookup k := by
  have hnodup' : (keys fs).Nodup := (h.map Prod.fst).nodup_iff.2 hnodup
  ext v
  rw [lookup_eq_some hnodup, lookup_eq_some hnodup', h.mem_iff]

/-- With distinct keys, a selection keeps a value or forgets it. -/
theorem lookup_filter (hnodup : (keys es).Nodup) (p : Text → Text → Bool) (k : Text) :
    (es.filter fun e => p e.1 e.2).lookup k = (es.lookup k).filter (p k) := by
  ext v
  rw [lookup_eq_some (nodup_keys_filter hnodup), List.mem_filter, Option.filter_eq_some_iff,
    lookup_eq_some hnodup]

/-- A value that was changed is the change of the value found before. -/
theorem lookup_map (f : Text → Text → Text) (k : Text) (es : List (Text × Text)) :
    (es.map fun e => (e.1, f e.1 e.2)).lookup k = (es.lookup k).map (f k) := by
  induction es with
  | nil => rfl
  | cons e es ih =>
      rw [List.map_cons, lookup_cons, lookup_cons, ih]
      by_cases hk : k = e.1
      · rw [if_pos hk, if_pos hk, hk]
        rfl
      · rw [if_neg hk, if_neg hk]

/-- A look-up finds something exactly under the keys. -/
theorem lookup_isSome (k : Text) (es : List (Text × Text)) :
    (es.lookup k).isSome = true ↔ k ∈ keys es := by
  induction es with
  | nil => simp [keys]
  | cons e es ih =>
      have hkeys : keys (e :: es) = e.1 :: keys es := rfl
      rw [lookup_cons, hkeys, List.mem_cons, ← ih]
      by_cases hk : k = e.1
      · simp [hk]
      · rw [if_neg hk]
        simp [hk]

end Entries

-- =========================================================== catalogs

namespace Catalog

variable (c d : Catalog) (k : Text)

/-- The entries of a catalog are what its look-ups give. -/
theorem mem_entries {c : Catalog} {k v : Text} : (k, v) ∈ c.entries ↔ c.get? k = some v :=
  (Entries.lookup_eq_some c.nodup).symm

/-- The keys of a catalog are those that have a value. -/
theorem mem_keys {c : Catalog} {k : Text} : k ∈ c.keys ↔ (c.get? k).isSome = true :=
  (Entries.lookup_isSome k c.entries).symm

/-- The entries are the keys in order, each with its value. -/
theorem entries_eq : c.entries = c.keys.map fun k => (k, (c.get? k).getD []) := by
  have hvalue : ∀ e ∈ c.entries, (e.1, (c.get? e.1).getD []) = e := by
    intro e he
    rw [mem_entries.1 he]
    rfl
  rw [keys, Entries.keys, List.map_map]
  calc c.entries = c.entries.map id := (List.map_id _).symm
    _ = _ := List.map_congr_left fun e he => (hvalue e he).symm

/-- A catalog is its keys in their order and the value of each. -/
theorem ext_of_keys {c d : Catalog} (hkeys : c.keys = d.keys)
    (hget : ∀ k, c.get? k = d.get? k) : c = d := by
  have hentries : c.entries = d.entries := by
    rw [entries_eq c, entries_eq d, hkeys]
    simp only [hget]
  obtain ⟨es, hes⟩ := c
  obtain ⟨fs, hfs⟩ := d
  cases hentries
  rfl

-- ========================================================= operations

theorem get?_empty : empty.get? k = none := rfl

/-- A look-up after a key was put in. -/
theorem get?_insert (key value : Text) :
    (c.insert key value).get? k = if k = key then some value else c.get? k :=
  Entries.lookup_put key value k c.entries

/-- Of several values written under a key the last counts. -/
theorem get?_insertAll (es : List (Text × Text)) :
    (c.insertAll es).get? k = (es.reverse.lookup k).or (c.get? k) := by
  induction es generalizing c with
  | nil => rfl
  | cons e es ih =>
      have hlast : (e :: es).reverse.lookup k
          = (es.reverse.lookup k).or (if k = e.1 then some e.2 else none) := by
        rw [List.reverse_cons, List.lookup_append, Entries.lookup_cons, List.lookup_nil]
      show ((c.insert e.1 e.2).insertAll es).get? k = _
      rw [ih, get?_insert, hlast, Option.or_assoc]
      by_cases hk : k = e.1
      · simp [hk]
      · simp [hk]

/-- Of several entries with one key the last one counts. -/
theorem get?_ofList (es : List (Text × Text)) : (ofList es).get? k = es.reverse.lookup k := by
  rw [ofList, get?_insertAll, get?_empty, Option.or_none]

/-- A look-up after keys were put in, whose values are empty. -/
theorem get?_insertKeys (ks : List Text) :
    (c.insertKeys ks).get? k = if k ∈ ks then some [] else c.get? k := by
  induction ks generalizing c with
  | nil => rfl
  | cons key ks ih =>
      show ((c.insert key []).insertKeys ks).get? k = _
      rw [ih, get?_insert]
      by_cases hk : k ∈ ks
      · simp [hk]
      · simp [hk]

/-- A look-up in a filtered catalog tests the value it finds. -/
theorem get?_filter (p : Text → Text → Bool) : (c.filter p).get? k = (c.get? k).filter (p k) :=
  Entries.lookup_filter c.nodup p k

/-- A look-up after a key was taken out. -/
theorem get?_erase (key : Text) : (c.erase key).get? k = if k = key then none else c.get? k := by
  rw [erase, get?_filter]
  cases c.get? k with
  | none => simp
  | some v =>
      by_cases hk : k = key
      · simp [hk]
      · simp [hk]

theorem get?_map (f : Text → Text → Text) : (c.map f).get? k = (c.get? k).map (f k) :=
  Entries.lookup_map f k c.entries

/-- Of two values the second counts. -/
theorem get?_union : (c.union d).get? k = (d.get? k).or (c.get? k) := by
  have hreverse : d.entries.reverse.lookup k = d.get? k :=
    Entries.lookup_perm d.nodup (List.reverse_perm d.entries) k
  rw [union, get?_insertAll, hreverse]

/-- What two catalogs share has the values of the first. -/
theorem get?_inter : (c.inter d).get? k = (c.get? k).bind fun _ => d.get? k := by
  rw [inter, get?_map, get?_filter]
  cases c.get? k with
  | none => rfl
  | some v =>
      cases hd : d.get? k with
      | none => simp [contains, hd]
      | some w => simp [contains, hd]

/-- Sorting changes no look-up. -/
theorem get?_sortBy (le : Text → Text → Bool) : (c.sortBy le).get? k = c.get? k :=
  Entries.lookup_perm c.nodup (List.mergeSort_perm c.entries _) k

end Catalog

end KeyHarvest
