/-
What writing into a catalog does to its keys and values. Keys written in
a row are appended in the order in which each first occurs, those that
are there already keep their place, and every value that is not there
already is the one that was written. So the keys of a union are those of
both catalogs in a row, later repetitions left out (`keys_union`).
-/
import KeyHarvest.Catalog.Basic

namespace KeyHarvest

-- ======================================================== repetitions

section Repetitions

variable {α : Type} [BEq α] [LawfulBEq α]

/-- A selection and the removal of later repetitions may change places. -/
theorem filter_eraseDups (p : α → Bool) (l : List α) :
    l.eraseDups.filter p = (l.filter p).eraseDups := by
  -- the tail loses all repetitions of the head, so it is not a plain tail
  match l with
  | [] => rfl
  | a :: l =>
      have hshorter : (l.filter fun b => !b == a).length < (a :: l).length :=
        Nat.lt_succ_of_le (List.length_filter_le _ l)
      rw [List.eraseDups_cons]
      by_cases ha : p a = true
      · rw [List.filter_cons_of_pos ha, List.filter_cons_of_pos ha, List.eraseDups_cons,
          filter_eraseDups p (l.filter fun b => !b == a), List.filter_filter, List.filter_filter]
        simp only [Bool.and_comm]
      · rw [List.filter_cons_of_neg ha, List.filter_cons_of_neg ha,
          filter_eraseDups p (l.filter fun b => !b == a), List.filter_filter]
        congr 1
        refine List.filter_congr fun x _ => ?_
        by_cases hx : x = a
        · subst hx
          simp [ha]
        · simp [hx]
termination_by l.length
decreasing_by all_goals exact hshorter

/-- Nothing is left twice when repetitions are left out. -/
theorem nodup_eraseDups (l : List α) : l.eraseDups.Nodup := by
  match l with
  | [] => exact List.nodup_nil
  | a :: l =>
      have hshorter : (l.filter fun b => !b == a).length < (a :: l).length :=
        Nat.lt_succ_of_le (List.length_filter_le _ l)
      rw [List.eraseDups_cons, List.nodup_cons]
      refine ⟨?_, nodup_eraseDups (l.filter fun b => !b == a)⟩
      simp [List.mem_eraseDups]
termination_by l.length
decreasing_by all_goals exact hshorter

/-- Nothing is left out of a list without repetitions. -/
theorem eraseDups_of_nodup {l : List α} (h : l.Nodup) : l.eraseDups = l := by
  induction l with
  | nil => rfl
  | cons a l ih =>
      obtain ⟨ha, hl⟩ := List.nodup_cons.1 h
      have hne : (l.filter fun b => !b == a) = l := by
        rw [List.filter_eq_self]
        intro b hb
        have hba : b ≠ a := fun hba => ha (hba ▸ hb)
        simp [hba]
      rw [List.eraseDups_cons, hne, ih hl]

/-- Repetitions may be left out of the first part of a list beforehand. -/
theorem eraseDups_append_left (l m : List α) :
    (l.eraseDups ++ m).eraseDups = (l ++ m).eraseDups := by
  have hremove : m.removeAll l.eraseDups = m.removeAll l := by
    refine List.filter_congr fun x _ => ?_
    rw [Bool.eq_iff_iff]
    simp [List.mem_eraseDups]
  rw [List.eraseDups_append, List.eraseDups_append, hremove,
    eraseDups_of_nodup (nodup_eraseDups l)]

/-- Repetitions may be left out of the last part of a list beforehand. -/
theorem eraseDups_append_right (l m : List α) :
    (l ++ m.eraseDups).eraseDups = (l ++ m).eraseDups := by
  have hremove : m.eraseDups.removeAll l = (m.removeAll l).eraseDups :=
    filter_eraseDups _ m
  rw [List.eraseDups_append, List.eraseDups_append, hremove,
    eraseDups_of_nodup (nodup_eraseDups _)]

/-- A part that repeats what stands before it may be left out. -/
theorem eraseDups_append_of_subset {l m : List α} (h : m ⊆ l) :
    (l ++ m).eraseDups = l.eraseDups := by
  have hremove : m.removeAll l = [] := by
    refine List.filter_eq_nil_iff.2 fun x hx => ?_
    simpa using h hx
  rw [List.eraseDups_append, hremove, List.eraseDups_nil, List.append_nil]

end Repetitions

-- ============================================================ writing

/-- Writing adds no entry but the one written. -/
theorem Entries.mem_put {key value : Text} {es : List (Text × Text)} {e : Text × Text}
    (h : e ∈ put key value es) : e = (key, value) ∨ e ∈ es := by
  induction es with
  | nil => exact .inl (List.mem_singleton.1 h)
  | cons d es ih =>
      unfold put at h
      by_cases hd : d.1 = key
      · rw [if_pos hd] at h
        rcases List.mem_cons.1 h with h | h
        · exact .inl h
        · exact .inr (List.mem_cons_of_mem d h)
      · rw [if_neg hd] at h
        rcases List.mem_cons.1 h with h | h
        · exact .inr (h ▸ List.mem_cons_self)
        · exact (ih h).imp id (List.mem_cons_of_mem d)

namespace Catalog

/-- No key is twice in a catalog. -/
theorem nodup_keys (c : Catalog) : c.keys.Nodup := c.nodup

/-- A key that is put in stands behind the others, or where it was. -/
theorem keys_insert (c : Catalog) (key value : Text) :
    (c.insert key value).keys = (c.keys ++ [key]).eraseDups := by
  have hput : (c.insert key value).keys = if key ∈ c.keys then c.keys else c.keys ++ [key] :=
    Entries.keys_put key value c.entries
  rw [hput]
  by_cases hk : key ∈ c.keys
  · rw [if_pos hk, eraseDups_append_of_subset (by simpa using hk), eraseDups_of_nodup c.nodup_keys]
  · have hnodup : (c.keys ++ [key]).Nodup := by
      refine List.nodup_append.2 ⟨c.nodup_keys, by simp, ?_⟩
      intro a ha b hb hab
      rw [List.mem_singleton.1 hb] at hab
      exact hk (hab ▸ ha)
    rw [if_neg hk, eraseDups_of_nodup hnodup]

/-- Entries written in a row: the keys that are new, each once, in the
order of their first occurrence. -/
theorem keys_insertAll (c : Catalog) (es : List (Text × Text)) :
    (c.insertAll es).keys = (c.keys ++ Entries.keys es).eraseDups := by
  induction es generalizing c with
  | nil =>
      show c.keys = (c.keys ++ []).eraseDups
      rw [List.append_nil, eraseDups_of_nodup c.nodup_keys]
  | cons e es ih =>
      show ((c.insert e.1 e.2).insertAll es).keys = (c.keys ++ e.1 :: Entries.keys es).eraseDups
      rw [ih, keys_insert, eraseDups_append_left, List.append_assoc, List.singleton_append]

/-- The keys of a union are those of both catalogs in a row, later
repetitions left out. -/
theorem keys_union (c d : Catalog) : (c.union d).keys = (c.keys ++ d.keys).eraseDups :=
  keys_insertAll c d.entries

/-- Keys are written like entries with empty values. -/
theorem insertKeys_eq_insertAll (c : Catalog) (ks : List Text) :
    c.insertKeys ks = c.insertAll (ks.map fun k => (k, [])) := by
  unfold insertKeys insertAll
  rw [List.foldl_map]

/-- Keys written in a row: those that are new, each once, in the order of
their first occurrence. -/
theorem keys_insertKeys (c : Catalog) (ks : List Text) :
    (c.insertKeys ks).keys = (c.keys ++ ks).eraseDups := by
  have hkeys : Entries.keys (ks.map fun k => (k, ([] : Text))) = ks := by
    unfold Entries.keys
    rw [List.map_map]
    exact List.map_id ks
  rw [insertKeys_eq_insertAll, keys_insertAll, hkeys]

/-- The keys of a catalog that is filled from nothing. -/
theorem keys_empty_insertKeys (ks : List Text) : (empty.insertKeys ks).keys = ks.eraseDups :=
  keys_insertKeys empty ks

/-- Keys are written with empty values. -/
theorem value_of_mem_insertKeys {c : Catalog} {ks : List Text}
    (h : ∀ e ∈ c.entries, e.2 = []) : ∀ e ∈ (c.insertKeys ks).entries, e.2 = [] := by
  induction ks generalizing c with
  | nil => exact h
  | cons k ks ih =>
      refine ih (c := c.insert k []) ?_
      intro e he
      rcases Entries.mem_put he with rfl | he
      · rfl
      · exact h e he

end Catalog

end KeyHarvest
