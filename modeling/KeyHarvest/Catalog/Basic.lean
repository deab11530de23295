/-
Catalogs of translation keys: every key once, with a default value, in
the order in which the keys were first seen. Writing a key again replaces
its value and keeps its place. All operations return a new catalog.

The entries carry the proof that their keys are distinct, so a catalog is
a finite ordered map; `get?` and `keys` are the two views of it.
-/
import KeyHarvest.Text.Basic

namespace KeyHarvest

-- ============================================================ entries

namespace Entries

/-- The keys of a list of entries. -/
def keys (es : List (Text × Text)) : List Text := es.map Prod.fst

/-- The entries with a value written under a key: in place when the key
is there, at the end when it is not. -/
def put (key value : Text) : List (Text × Text) → List (Text × Text)
  | [] => [(key, value)]
  | e :: es => if e.1 = key then (key, value) :: es else e :: put key value es

/-- Writing keeps the keys, or appends a new one. -/
theorem keys_put (key value : Text) (es : List (Text × Text)) :
    keys (put key value es) = if key ∈ keys es then keys es else keys es ++ [key] := by
  induction es with
  | nil => simp [put, keys]
  | cons e es ih =>
      by_cases he : e.1 = key
      · simp [put, keys, he]
      · have hne : ¬ key = e.1 := fun h => he h.symm
        have hput : keys (put key value (e :: es)) = e.1 :: keys (put key value es) := by
          simp [put, he, keys]
        have hcons : keys (e :: es) = e.1 :: keys es := by simp [keys]
        rw [hput, ih, hcons]
        by_cases hk : key ∈ keys es <;> simp [hk, hne]

/-- Writing keeps the keys distinct. -/
theorem nodup_keys_put {key value : Text} {es : List (Text × Text)} (h : (keys es).Nodup) :
    (keys (put key value es)).Nodup := by
  rw [keys_put]
  split
  · exact h
  · next hk =>
      refine List.nodup_append.2 ⟨h, by simp, ?_⟩
      intro a ha b hb hab
      rw [List.mem_singleton.1 hb] at hab
      exact hk (hab ▸ ha)

/-- A selection of entries has distinct keys. -/
theorem nodup_keys_filter {p : Text × Text → Bool} {es : List (Text × Text)}
    (h : (keys es).Nodup) : (keys (es.filter p)).Nodup :=
  h.sublist (List.filter_sublist.map _)

end Entries

-- =========================================================== catalogs

/-- An ordered map from translation keys to default values. -/
structure Catalog where
  entries : List (Text × Text)
  nodup : (Entries.keys entries).Nodup

namespace Catalog

/-- The catalog without keys. -/
def empty : Catalog := ⟨[], by simp [Entries.keys]⟩

/-- The keys in order. -/
def keys (c : Catalog) : List Text := Entries.keys c.entries

/-- The value of a key. -/
def get? (c : Catalog) (key : Text) : Option Text := c.entries.lookup key

/-- Whether a key is there. -/
def contains (c : Catalog) (key : Text) : Bool := (c.get? key).isSome

/-- The number of keys. -/
def size (c : Catalog) : Nat := c.entries.length

/-- Whether there are no keys. -/
def isEmpty (c : Catalog) : Bool := c.entries.isEmpty

/-- The catalog with a value written under a key. -/
def insert (c : Catalog) (key value : Text) : Catalog :=
  ⟨Entries.put key value c.entries, Entries.nodup_keys_put c.nodup⟩

/-- The catalog with entries written in order. -/
def insertAll (c : Catalog) (es : List (Text × Text)) : Catalog :=
  es.foldl (fun c e => c.insert e.1 e.2) c

/-- The catalog with keys written in order, each with an empty value. -/
def insertKeys (c : Catalog) (keys : List Text) : Catalog :=
  keys.foldl (fun c key => c.insert key []) c

/-- The catalog of a list of entries; the last value of a key counts. -/
def ofList (es : List (Text × Text)) : Catalog := empty.insertAll es

/-- The entries that pass a test. -/
def filter (c : Catalog) (p : Text → Text → Bool) : Catalog :=
  ⟨c.entries.filter fun e => p e.1 e.2, Entries.nodup_keys_filter c.nodup⟩

/-- The catalog without a key. -/
def erase (c : Catalog) (key : Text) : Catalog := c.filter fun k _ => k ≠ key

/-- The catalog with every value replaced. -/
def map (c : Catalog) (f : Text → Text → Text) : Catalog :=
  ⟨c.entries.map fun e => (e.1, f e.1 e.2), by
    have h : Entries.keys (c.entries.map fun e => (e.1, f e.1 e.2)) = Entries.keys c.entries := by
      simp [Entries.keys]
    rw [h]
    exact c.nodup⟩

/-- The keys of both catalogs; of two values the second counts. -/
def union (c d : Catalog) : Catalog := c.insertAll d.entries

/-- The keys that are in both catalogs, with the values of the second. -/
def inter (c d : Catalog) : Catalog :=
  (c.filter fun key _ => d.contains key).map fun key value => (d.get? key).getD value

/-- The same entries in the order of their keys; `le` may hold both ways,
and such keys stay as they were. -/
def sortBy (c : Catalog) (le : Text → Text → Bool) : Catalog :=
  ⟨c.entries.mergeSort fun a b => le a.1 b.1, by
    have h := (List.mergeSort_perm c.entries fun a b => le a.1 b.1).map Prod.fst
    exact h.nodup_iff.2 c.nodup⟩

/-- The same entries in the order of their keys by code point. -/
def sort (c : Catalog) : Catalog := c.sortBy Text.le

/-- Whether two catalogs have the same keys with the same values, in
whatever order. -/
def agrees (c d : Catalog) : Bool :=
  c.size = d.size && c.entries.all fun e => d.get? e.1 = some e.2

end Catalog

end KeyHarvest
