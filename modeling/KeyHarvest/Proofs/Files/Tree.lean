/-
Which files a tree holds, whatever the order of its listings. A directory
lists every name once, at every depth (`Distinct`); then a file is at a
path when the entries on the way lead to it (`holdsFile_cons`), and listing
directories in another order, at any depth, moves no file
(`Relisted.holdsFile`).
-/
import KeyHarvest.Files.Tree

namespace KeyHarvest

/-- With distinct names, an entry is found under its name. -/
theorem lookup_eq_some_of_distinct {α : Type} {es : List (Text × α)} {name : Text} {a : α}
    (h : (es.map Prod.fst).Nodup) : es.lookup name = some a ↔ (name, a) ∈ es := by
  rw [List.lookup_eq_some_iff]
  constructor
  · rintro ⟨before, after, rfl, -⟩
    exact List.mem_append_right before List.mem_cons_self
  · intro hmem
    obtain ⟨before, after, rfl⟩ := List.append_of_mem hmem
    refine ⟨before, after, rfl, fun e he => ?_⟩
    rw [List.map_append, List.map_cons, List.nodup_append] at h
    have hne := h.2.2 e.1 (List.mem_map_of_mem he) name List.mem_cons_self
    simpa using hne.symm

namespace Tree

/-- A tree whose directories list every name once, at every depth. -/
inductive Distinct : Tree → Prop where
  | file (bytes : List UInt8) : Distinct (.file bytes)
  | directory {entries : List (Text × Tree)} (names : (entries.map Prod.fst).Nodup)
      (below : ∀ e ∈ entries, Distinct e.2) : Distinct (.directory entries)

/-- Trees that differ in the order of listings only: of one directory, at
any depth, or of several one after the other. -/
inductive Relisted : Tree → Tree → Prop where
  | listing {es fs : List (Text × Tree)} (h : es.Perm fs) :
      Relisted (.directory es) (.directory fs)
  | inside {before after : List (Text × Tree)} {name : Text} {t u : Tree} (h : Relisted t u) :
      Relisted (.directory (before ++ (name, t) :: after))
        (.directory (before ++ (name, u) :: after))
  | trans {t u v : Tree} (h : Relisted t u) (h' : Relisted u v) : Relisted t v

/-- A file with the given bytes is at the end of a path. -/
def HoldsFile (t : Tree) (path : List Text) (bytes : List UInt8) : Prop :=
  t.node? path = some (.file bytes)

variable {t u : Tree} {es fs : List (Text × Tree)} {name : Text} {path : List Text}
  {bytes : List UInt8}

-- =============================================================== files

theorem not_holdsFile_nil : ¬ (directory es).HoldsFile [] bytes := nofun

/-- Nothing lies below a file. -/
theorem not_holdsFile_file {content : List UInt8} : ¬ (file content).HoldsFile (name :: path) bytes :=
  nofun

/-- A file below a directory is below one of its entries. -/
theorem holdsFile_cons (h : (es.map Prod.fst).Nodup) :
    (directory es).HoldsFile (name :: path) bytes
      ↔ ∃ t, (name, t) ∈ es ∧ t.HoldsFile path bytes := by
  have hnode : (directory es).node? (name :: path) = (es.lookup name).bind (node? path) := rfl
  rw [HoldsFile, hnode, Option.bind_eq_some_iff]
  simp only [lookup_eq_some_of_distinct h, HoldsFile]

/-- An entry is a file itself when nothing follows its name. -/
theorem holdsFile_nil_iff : t.HoldsFile [] bytes ↔ t = .file bytes := Option.some_inj

-- ============================================================ listings

namespace Relisted

/-- Only directories are listed. -/
theorem exists_directory (h : Relisted t u) : ∃ fs, u = .directory fs := by
  induction h with
  | listing _ => exact ⟨_, rfl⟩
  | inside _ => exact ⟨_, rfl⟩
  | trans _ _ _ ih' => exact ih'

/-- A tree that is listed anew still lists every name once. -/
theorem distinct (h : Relisted t u) (ht : t.Distinct) : u.Distinct := by
  induction h with
  | trans _ _ ih ih' => exact ih' (ih ht)
  | @listing es fs hperm =>
      cases ht with
      | directory names below =>
          exact .directory ((hperm.map Prod.fst).nodup_iff.1 names)
            fun e he => below e (hperm.mem_iff.2 he)
  | @inside before after name t u _ ih =>
      cases ht with
      | directory names below =>
          have hbelow := below _ (List.mem_append_right before List.mem_cons_self)
          refine .directory (by simpa using names) fun e he => ?_
          rcases List.mem_append.1 he with he | he
          · exact below e (List.mem_append_left _ he)
          rcases List.mem_cons.1 he with rfl | he
          · exact ih hbelow
          · exact below e (List.mem_append_right before (List.mem_cons_of_mem _ he))

/-- A tree that is listed anew holds the same files. -/
theorem holdsFile (h : Relisted t u) (ht : t.Distinct) (path : List Text) (bytes : List UInt8) :
    t.HoldsFile path bytes ↔ u.HoldsFile path bytes := by
  induction h generalizing path with
  | trans h _ ih ih' => exact (ih ht path).trans (ih' (h.distinct ht) path)
  | @listing es fs hperm =>
      cases path with
      | nil => exact iff_of_false not_holdsFile_nil not_holdsFile_nil
      | cons name path =>
          cases ht with
          | directory names _ =>
              rw [holdsFile_cons names, holdsFile_cons ((hperm.map Prod.fst).nodup_iff.1 names)]
              simp only [hperm.mem_iff]
  | @inside before after name t u h ih =>
      cases path with
      | nil => exact iff_of_false not_holdsFile_nil not_holdsFile_nil
      | cons part path =>
          cases ht with
          | directory names below =>
              have hbelow := below _ (List.mem_append_right before List.mem_cons_self)
              have hfiles := ih hbelow path
              rw [holdsFile_cons names, holdsFile_cons (by simpa using names)]
              -- but for the entry that is listed anew the listings are equal
              simp only [List.mem_append, List.mem_cons, Prod.mk.injEq]
              constructor
              · rintro ⟨v, hv | ⟨rfl, rfl⟩ | hv, hfile⟩
                · exact ⟨v, .inl hv, hfile⟩
                · exact ⟨u, .inr (.inl ⟨rfl, rfl⟩), hfiles.1 hfile⟩
                · exact ⟨v, .inr (.inr hv), hfile⟩
              · rintro ⟨v, hv | ⟨rfl, rfl⟩ | hv, hfile⟩
                · exact ⟨v, .inl hv, hfile⟩
                · exact ⟨t, .inr (.inl ⟨rfl, rfl⟩), hfiles.2 hfile⟩
                · exact ⟨v, .inr (.inr hv), hfile⟩

end Relisted

end Tree

end KeyHarvest
