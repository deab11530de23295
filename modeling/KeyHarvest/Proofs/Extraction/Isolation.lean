/-
Searches over one file keep out of each other's way. What a search returns
and whether it refuses the file is its own affair, so the outcome of all
of them is put together from the outcomes of each: the catalogs they
return, united from left to right, and one record for each refusal, in
order and behind the records from before (`gather_eq`, and by induction
`foldlM_gather`). A search that refuses the file or has nothing to return
can be put in or left out, and the catalog stays.

Without records the first refusal is the outcome. It comes exactly when
there is one; else the catalog is the same (`searches_isolated`).
-/
import KeyHarvest.Proofs.Extraction.Merge
import KeyHarvest.Proofs.Refusal
import Mathlib.Data.List.Basic

namespace KeyHarvest

/-- The union of catalogs from left to right. -/
def Catalog.unionAll (cs : List Catalog) : Catalog := cs.foldl Catalog.union .empty

namespace Search

/-- The catalog that a search returns, if it returns one. -/
def returned? (s : Search) : Option Catalog :=
  match s.source.extract s.path s.text with
  | .ok found => found
  | .error _ => none

/-- One search adds its catalog and the record of its refusal. -/
theorem gather_eq {s : Search} (hs : s.Ends) (h : Harvest) :
    h.gather s.path s.text s.source
      = .ok ⟨s.returned?.toList.foldl Catalog.union h.keys, h.failed ++ s.failure?.toList⟩ := by
  unfold Harvest.gather returned? failure?
  cases hx : s.source.extract s.path s.text with
  | ok found =>
      show _ = Except.ok (⟨found.toList.foldl Catalog.union h.keys, h.failed ++ []⟩ : Harvest)
      rw [List.append_nil]
      cases found <;> rfl
  | error e =>
      obtain ⟨fault, p, place, rfl⟩ := hs e hx
      rfl

end Search

namespace KeySource

/-- The searches of several sources over a file. -/
def overFile (sources : List KeySource) (path text : Text) : List Search :=
  sources.map fun k => ⟨k, path, text⟩

/-- The catalogs that searches return. -/
def catalogs (ss : List Search) : List Catalog := ss.filterMap Search.returned?

/-- The searches over a file, with records of refusals from before. -/
def collectBehind (earlier : List Failure) (sources : List KeySource) (path text : Text) :
    Except Template.Error Harvest :=
  sources.foldlM (Harvest.gather path text) ⟨.empty, earlier⟩

variable {path text : Text}

theorem overFile_cons (k : KeySource) (sources : List KeySource) :
    overFile (k :: sources) path text = ⟨k, path, text⟩ :: overFile sources path text := rfl

theorem overFile_append (before after : List KeySource) :
    overFile (before ++ after) path text = overFile before path text ++ overFile after path text :=
  List.map_append

theorem catalogs_append (ss ts : List Search) : catalogs (ss ++ ts) = catalogs ss ++ catalogs ts :=
  List.filterMap_append

theorem catalogs_cons (s : Search) (ss : List Search) :
    catalogs (s :: ss) = s.returned?.toList ++ catalogs ss := by
  rw [catalogs, catalogs, List.filterMap_eq_flatMap_toList, List.filterMap_eq_flatMap_toList,
    List.flatMap_cons]

theorem failuresOf_cons (s : Search) (ss : List Search) :
    failuresOf (s :: ss) = s.failure?.toList ++ failuresOf ss := by
  rw [failuresOf, failuresOf, List.filterMap_eq_flatMap_toList, List.filterMap_eq_flatMap_toList,
    List.flatMap_cons]

-- ========================================================= with records

/-- Searches add their catalogs and the records of their refusals in
order. -/
theorem foldlM_gather {sources : List KeySource} (hs : ∀ s ∈ overFile sources path text, s.Ends)
    (h : Harvest) :
    sources.foldlM (Harvest.gather path text) h
      = .ok ⟨(catalogs (overFile sources path text)).foldl Catalog.union h.keys,
          h.failed ++ failuresOf (overFile sources path text)⟩ := by
  induction sources generalizing h with
  | nil =>
      show Except.ok h = Except.ok (⟨h.keys, h.failed ++ []⟩ : Harvest)
      rw [List.append_nil]
  | cons k sources ih =>
      have hstep := Search.gather_eq (hs ⟨k, path, text⟩ List.mem_cons_self) h
      rw [List.foldlM_cons, hstep]
      show sources.foldlM (Harvest.gather path text) _ = _
      rw [ih fun s hmem => hs s (List.mem_cons_of_mem _ hmem), overFile_cons, catalogs_cons,
        failuresOf_cons, List.foldl_append, List.append_assoc]

-- ====================================================== without records

/-- One more search over a file, which must not refuse it. -/
def addStrictly (path text : Text) (keys : Catalog) (k : KeySource) :
    Except Template.Error Catalog :=
  (k.extract path text).map fun found => found.toList.foldl Catalog.union keys

/-- The strict collection is a fold that the first error stops. -/
theorem collectStrictly_eq (sources : List KeySource) (path text : Text) :
    collectStrictly sources path text = sources.foldlM (addStrictly path text) .empty := by
  unfold collectStrictly
  congr 1
  funext keys k
  unfold addStrictly
  cases k.extract path text with
  | error e => rfl
  | ok found => cases found <;> rfl

/-- The outcome without records is the first refusal, if there is one. -/
theorem refusal?_collectStrictly (sources : List KeySource) (path text : Text) :
    refusal? (collectStrictly sources path text)
      = sources.findSome? fun k => refusal? (k.extract path text) := by
  rw [collectStrictly_eq]
  apply refusal?_foldlM
  intro keys k
  unfold addStrictly
  cases k.extract path text <;> rfl

/-- The strict collection fails with the error of the first source that
fails. -/
theorem collectStrictly_eq_error {sources : List KeySource} {e : Template.Error} :
    collectStrictly sources path text = .error e
      ↔ Reaches (fun k => ∃ found, k.extract path text = .ok found)
        (fun k => k.extract path text = .error e) sources := by
  rw [← refusal?_eq_some, refusal?_collectStrictly, findSome?_eq_some_iff_reaches]
  apply reaches_congr
  · intro k _
    exact refusal?_eq_none
  · intro k _
    exact refusal?_eq_some

/-- Without a refusal the catalogs are united as they are with records. -/
theorem foldlM_addStrictly {sources : List KeySource}
    (h : ∀ k ∈ sources, ∃ found, k.extract path text = .ok found) (keys : Catalog) :
    sources.foldlM (addStrictly path text) keys
      = .ok ((catalogs (overFile sources path text)).foldl Catalog.union keys) := by
  induction sources generalizing keys with
  | nil => rfl
  | cons k sources ih =>
      obtain ⟨found, hfound⟩ := h k List.mem_cons_self
      have hreturned : Search.returned? ⟨k, path, text⟩ = found := by
        unfold Search.returned?
        rw [hfound]
      have hstep : addStrictly path text keys k
          = .ok (found.toList.foldl Catalog.union keys) := by
        unfold addStrictly
        rw [hfound]
        rfl
      rw [List.foldlM_cons, hstep]
      show sources.foldlM (addStrictly path text) _ = _
      rw [ih fun j hj => h j (List.mem_cons_of_mem k hj), overFile_cons, catalogs_cons, hreturned,
        List.foldl_append]

/-- The strict collection succeeds when every source does, with all they
find. -/
theorem collectStrictly_eq_ok {sources : List KeySource} {c : Catalog} :
    collectStrictly sources path text = .ok c
      ↔ (∀ k ∈ sources, ∃ found, k.extract path text = .ok found)
        ∧ c = .unionAll (catalogs (overFile sources path text)) := by
  constructor
  · intro h
    have hnone : refusal? (collectStrictly sources path text) = none := refusal?_eq_none.2 ⟨c, h⟩
    rw [refusal?_collectStrictly, List.findSome?_eq_none_iff] at hnone
    have hall : ∀ k ∈ sources, ∃ found, k.extract path text = .ok found :=
      fun k hk => refusal?_eq_none.1 (hnone k hk)
    rw [collectStrictly_eq, foldlM_addStrictly hall] at h
    exact ⟨hall, (Except.ok.inj h).symm⟩
  · intro h
    obtain ⟨hall, rfl⟩ := h
    rw [collectStrictly_eq]
    exact foldlM_addStrictly hall .empty

-- ============================================================= isolation

/-- Over searches that end, the outcome with records is the union of the
catalogs that are returned, and behind the records from before one for
each refusal, in order. Without records the outcome is the first refusal,
or that same catalog if there is none. A search that returns no catalog
can be put in anywhere: it leaves at most its own record. -/
theorem searches_isolated (sources : List KeySource) (path text : Text)
    (hends : ∀ s ∈ overFile sources path text, s.Ends) :
    collect sources path text = collectBehind [] sources path text
    ∧ (∀ earlier, collectBehind earlier sources path text
        = .ok ⟨.unionAll (catalogs (overFile sources path text)),
            earlier ++ failuresOf (overFile sources path text)⟩)
    ∧ (∀ e, collectStrictly sources path text = .error e
        ↔ Reaches (fun k => ∃ found, k.extract path text = .ok found)
          (fun k => k.extract path text = .error e) sources)
    ∧ (∀ c, collectStrictly sources path text = .ok c
        ↔ (∀ k ∈ sources, ∃ found, k.extract path text = .ok found)
          ∧ c = .unionAll (catalogs (overFile sources path text)))
    ∧ ∀ before k after, sources = before ++ after →
        Search.Ends ⟨k, path, text⟩ → Search.returned? ⟨k, path, text⟩ = none →
        ∀ earlier, collectBehind earlier (before ++ k :: after) path text
          = .ok ⟨.unionAll (catalogs (overFile sources path text)),
              earlier ++ failuresOf (overFile before path text)
                ++ (Search.failure? ⟨k, path, text⟩).toList
                ++ failuresOf (overFile after path text)⟩ := by
  refine ⟨rfl, ?_, fun _ => collectStrictly_eq_error, fun _ => collectStrictly_eq_ok, ?_⟩
  · intro earlier
    exact foldlM_gather hends ⟨.empty, earlier⟩
  · -- a search that fails anywhere in the row
    intro before k after hsources hk hnone earlier
    have hmore : overFile (before ++ k :: after) path text
        = overFile before path text ++ ⟨k, path, text⟩ :: overFile after path text :=
      overFile_append _ _
    -- it gives no catalog, so the union is the same
    have hcatalogs : catalogs (overFile (before ++ k :: after) path text)
        = catalogs (overFile sources path text) := by
      rw [hmore, catalogs_append, catalogs_cons, hnone, hsources, overFile_append, catalogs_append]
      rfl
    have hall : ∀ s ∈ overFile (before ++ k :: after) path text, s.Ends := by
      intro s hs
      rw [hsources, overFile_append] at hends
      rw [hmore] at hs
      rcases List.mem_append.1 hs with hs | hs
      · exact hends s (List.mem_append_left _ hs)
      · rcases List.mem_cons.1 hs with rfl | hs
        · exact hk
        · exact hends s (List.mem_append_right _ hs)
    have hrun := foldlM_gather hall ⟨.empty, earlier⟩
    rw [hcatalogs, hmore, failuresOf_append, failuresOf_cons] at hrun
    unfold collectBehind
    rw [hrun, List.append_assoc, List.append_assoc]
    rfl

/-- A file that the first of two searches refuses, behind a record from
before, and a third one between them that has nothing to return. -/
theorem searches_isolated_unclosed :
    let path : Text := "a.html"
    let text : Text := "<'dfa.a|b'"
    let earlier : Failure := ⟨"b.html", "c", "d"⟩
    let silent : KeySource := ⟨"e", fun _ _ => .ok none⟩
    (∀ s ∈ overFile Config.defaults.sources path text, s.Ends)
      ∧ Search.Ends ⟨silent, path, text⟩ ∧ Search.returned? ⟨silent, path, text⟩ = none
      ∧ ∃ h h' e, collectBehind [earlier] Config.defaults.sources path text = .ok h
        ∧ h.keys.keys = [Text.ofString "dfa.a|b"]
        ∧ h.failed.map Failure.source = [Text.ofString "c", Text.ofString "tag"]
        ∧ collectBehind [earlier]
            [.ofMarked Config.defaults.marked, silent, .ofQuoted Config.defaults.quoted] path text
          = .ok h'
        ∧ h'.keys = h.keys
        ∧ collectStrictly Config.defaults.sources path text = .error e := by
  intro path text earlier silent
  have hends : ∀ s ∈ overFile Config.defaults.sources path text, s.Ends := by decide +kernel
  have hsilent : Search.Ends ⟨silent, path, text⟩ := by decide
  have hnone : Search.returned? ⟨silent, path, text⟩ = none := rfl
  obtain ⟨-, hcollect, hfirst, -, hmore⟩ :=
    searches_isolated Config.defaults.sources path text hends
  have hrefused : (Config.defaults.marked.extract path text).toOption.isNone = true := by
    decide +kernel
  have hfail : ∃ e, (KeySource.ofMarked Config.defaults.marked).extract path text = .error e := by
    show ∃ e, (Config.defaults.marked.extract path text).map some = .error e
    cases he : Config.defaults.marked.extract path text with
    | ok keys =>
        rw [he] at hrefused
        cases hrefused
    | error e => exact ⟨e, rfl⟩
  obtain ⟨e, he⟩ := hfail
  refine ⟨hends, hsilent, hnone, _, _, e, hcollect [earlier], ?_, ?_,
    hmore [.ofMarked Config.defaults.marked] silent [.ofQuoted Config.defaults.quoted] rfl hsilent
      hnone [earlier], rfl, ?_⟩
  · decide +kernel
  · decide +kernel
  · exact (hfirst e).2 ⟨[], _, _, rfl, by simp, he⟩

end KeySource

end KeyHarvest
