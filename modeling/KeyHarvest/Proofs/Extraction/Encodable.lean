/-
Which reports can be written. A report is written as UTF-8, which has no
place for surrogates. Files hold none, and neither references nor numerals
nor anything that cuts texts makes one. There is one place left: an escape
in a quotation may spell a surrogate, and its value is shown when it is a
key, or when it is the token at which a template is refused. A file leaks
when it shows such a value (`MarkedKeys.Leaks`), and a report can be
written exactly when no file of its run leaks (`report_writable`).

# The argument

`Encodable` adds up over keys and failures, so each of the three nested
loops of a run (searches, files, inputs) has the same rule: it ends with
something encodable exactly when it starts so and every turn adds such
(`foldlM_keeps`). What is left is one search over one file. Quoted keys
are cut out of the file, and a search for marked elements is encodable
exactly when the file does not leak (`encodable_ofMarked`).
-/
import KeyHarvest.Command.Outcome
import KeyHarvest.Proofs.Extraction.Merge
import KeyHarvest.Proofs.Json.Render
import KeyHarvest.Proofs.Keys.Marked
import KeyHarvest.Proofs.Keys.Scanner
import KeyHarvest.Proofs.Template.Origin

namespace KeyHarvest

open Text (Scalar)

/-- A loop keeps what each turn keeps, and then every turn brings
something of the kind `Q`. -/
theorem foldlM_keeps {α β ε : Type} {P : β → Prop} {Q : α → Prop} {f : β → α → Except ε β}
    (step : ∀ b a b', f b a = .ok b' → (P b' ↔ P b ∧ Q a)) {l : List α} {b b' : β}
    (h : l.foldlM f b = .ok b') : P b' ↔ P b ∧ ∀ a ∈ l, Q a := by
  induction l generalizing b with
  | nil =>
      cases h
      simp
  | cons a l ih =>
      rw [List.foldlM_cons] at h
      obtain ⟨c, hstep, hrest⟩ := bind_eq_ok.1 h
      rw [ih hrest, step b a c hstep, List.forall_mem_cons, and_assoc]

-- ======================================================= encodability

/-- A record of a failure without surrogates. -/
structure Failure.Encodable (x : Failure) : Prop where
  path : Scalar x.path
  source : Scalar x.source
  error : Scalar x.error

/-- A failure can be written when its path, its source and its message can.
-/
theorem Failure.encodable_iff {x : Failure} :
    x.Encodable ↔ Scalar x.path ∧ Scalar x.source ∧ Scalar x.error :=
  ⟨fun h => ⟨h.path, h.source, h.error⟩, fun h => ⟨h.1, h.2.1, h.2.2⟩⟩

/-- Keys and records of failures without surrogates. -/
def Encodable (keys : List Text) (failed : List Failure) : Prop :=
  (∀ key ∈ keys, Scalar key) ∧ ∀ x ∈ failed, x.Encodable

theorem encodable_nil : Encodable [] [] := ⟨nofun, nofun⟩

theorem encodable_append {ks ls : List Text} {xs ys : List Failure} :
    Encodable (ks ++ ls) (xs ++ ys) ↔ Encodable ks xs ∧ Encodable ls ys := by
  unfold Encodable
  rw [List.forall_mem_append, List.forall_mem_append, and_and_and_comm]

/-- Leaving out repeated keys changes nothing about whether they can be
written. -/
theorem encodable_eraseDups {ks : List Text} {xs : List Failure} :
    Encodable ks.eraseDups xs ↔ Encodable ks xs := by
  unfold Encodable
  simp only [List.mem_eraseDups]

/-- What was gathered can be written. -/
def Harvest.Encodable (h : Harvest) : Prop := KeyHarvest.Encodable h.keys.keys h.failed

/-- What a run has found can be written. -/
def Report.Encodable (r : Report) : Prop := KeyHarvest.Encodable r.keys.keys r.failed

/-- The outcome of a search can be written. -/
def Search.Encodable (s : Search) : Prop := KeyHarvest.Encodable s.found s.failure?.toList

-- ==================================================== marked elements

namespace MarkedKeys

variable {m : MarkedKeys} {path source v : Text}

/-- The values that the search for marked elements shows: the keys that
elements have from bound attributes, and the token at which a template is
refused. -/
inductive Shows (m : MarkedKeys) (path source v : Text) : Prop where
  | key {nodes : List Template.Node} {a : Template.Address} {n : Template.Node} {ks : List Text}
      (hparse : Template.parse path (templateOf path source) = .ok nodes)
      (hat : Template.at? nodes a = some n) (hmarks : m.Marks n) (hgives : Gives m n .bound ks)
      (hv : v ∈ ks)
  | token {fault : Template.Fault} {p : Text} {place : Option Place}
      (hparse : Template.parse path (templateOf path source) = .error (.malformed fault p place))
      (hv : fault.Shows v)

/-- A file whose search shows a value with a surrogate that an escape
spells. -/
def Leaks (m : MarkedKeys) (path source : Text) : Prop :=
  ∃ v, m.Shows path source v ∧ Template.Source.Conjures ⟨templateOf path source, path⟩ v

/-- The template of a file is cut out of it. -/
theorem scalar_templateOf (path : Text) (hsource : Scalar source) :
    Scalar (templateOf path source) := by
  unfold templateOf Script.inlineTemplate
  split
  · split
    · next p hp =>
        refine ((hsource.slice p.value.start p.value.stop).drop 1).subset ?_
        exact List.dropLast_subset _
    · exact Text.scalar_nil
  · exact hsource

/-- The keys of a template are those that its marked elements give. -/
theorem mem_nodesKeys {nodes : List Template.Node} :
    v ∈ m.nodesKeys nodes
      ↔ ∃ a n o ks, Template.at? nodes a = some n ∧ m.Marks n ∧ Gives m n o ks ∧ v ∈ ks := by
  rw [← flatMap_contributions, List.mem_flatMap]
  constructor
  · intro h
    obtain ⟨x, hx, hv⟩ := h
    obtain ⟨hat, hmarks⟩ := exists_contribution_iff.1 ⟨x, hx, rfl, rfl⟩
    exact ⟨x.address, x.node, x.origin, x.keys, hat, hmarks,
      (gives_of_mem_contributions hx _ _).2 ⟨rfl, rfl⟩, hv⟩
  · intro h
    obtain ⟨a, n, o, ks, hat, hmarks, hgives, hv⟩ := h
    obtain ⟨x, hx, -, rfl⟩ := exists_contribution_iff.2 ⟨hat, hmarks⟩
    obtain ⟨-, rfl⟩ := (gives_of_mem_contributions hx o ks).1 hgives
    exact ⟨x, hx, hv⟩

/-- The key of a literal is scalar, or the literal is a text. -/
theorem scalar_key_of_literal {l : Literal} (hl : l.key? = some v) :
    Scalar v ∨ l = .text v := by
  cases l with
  | text value => exact .inr (by cases hl; rfl)
  | number n =>
      cases hl
      exact .inl n.scalar_keyText
  | bool b =>
      cases hl
      exact .inl (by cases b <;> decide)
  | null => cases hl
  | undefined => cases hl

/-- A key of an element is scalar, unless it is quoted in a bound
attribute. -/
theorem Gives.scalar_or_quotes {P : Text → Prop} {n : Template.Node} {o : Origin} {ks : List Text}
    (h : Gives m n o ks) (hn : n.Clean P) (hv : v ∈ ks) :
    Scalar v ∨ o = .bound ∧ ∃ code, P code ∧ Quotes code v := by
  cases h with
  | plain ha hvalue =>
      obtain ⟨before, after, rfl, -, -⟩ := ha
      cases List.mem_singleton.1 hv
      exact .inl (hn.1 _ (by simp))
  | bound ha hb =>
      obtain ⟨before, after, rfl, -, -⟩ := hb
      obtain ⟨l, hl, hkey⟩ := List.mem_filterMap.1 hv
      rcases scalar_key_of_literal hkey with hscalar | rfl
      · exact .inl hscalar
      · exact .inr ⟨rfl, hn.2.1 _ (by simp) v hl⟩
  | text ha hb =>
      obtain ⟨t, ht, rfl⟩ := List.mem_map.1 hv
      obtain ⟨n, hmem, htext⟩ := List.mem_filterMap.1 ht
      split at htext
      · cases htext
        exact .inl (hn.2.2 _ hmem).trim
      · cases htext

/-- A key of a file is scalar, or is shown and quoted. -/
theorem scalar_or_shows_key (hsource : Scalar source) {nodes : List Template.Node}
    (hparse : Template.parse path (templateOf path source) = .ok nodes)
    (hv : v ∈ m.nodesKeys nodes) :
    Scalar v ∨ m.Shows path source v ∧ ∃ code,
      Template.Source.Reads ⟨templateOf path source, path⟩ code ∧ Quotes code v := by
  obtain ⟨a, n, o, ks, hat, hmarks, hgives, hmem⟩ := mem_nodesKeys.1 hv
  have hclean := (Template.clean_of_parse (scalar_templateOf path hsource) hparse).of_at? hat
  refine (hgives.scalar_or_quotes hclean hmem).imp_right fun h => ?_
  obtain ⟨rfl, hquotes⟩ := h
  exact ⟨.key hparse hat hmarks hgives hmem, hquotes⟩

end MarkedKeys

-- ========================================================= one search

/-- Keys that are quoted in a file are cut out of it. -/
theorem encodable_ofQuoted (q : QuotedKeys) (path : Text) {source : Text} (hsource : Scalar source) :
    Search.Encodable ⟨.ofQuoted q, path, source⟩ := by
  refine ⟨fun key hkey => ?_, nofun⟩
  have hmem : key ∈ (q.extract source).keys := hkey
  exact QuotedKeys.scalar_of_mem_extract hsource hmem

section Marked

variable {m : MarkedKeys} {path source : Text}

open MarkedKeys (templateOf)

/-- The outcome of a template that is accepted are its keys. -/
theorem encodable_of_parse {nodes : List Template.Node}
    (h : Template.parse path (templateOf path source) = .ok nodes) :
    Search.Encodable ⟨.ofMarked m, path, source⟩ ↔ ∀ v ∈ m.nodesKeys nodes, Scalar v := by
  have hextract : (KeySource.ofMarked m).extract path source
      = .ok (some (Catalog.empty.insertKeys (m.nodesKeys nodes))) := by
    show (m.extract path source).map some = _
    rw [MarkedKeys.extract, h]
    rfl
  unfold Search.Encodable Search.found Search.failure?
  simp only [hextract, Catalog.keys_empty_insertKeys, encodable_eraseDups]
  exact and_iff_left (List.forall_mem_nil _)

/-- The outcome of a template that is refused is its record. -/
theorem encodable_of_refused (hpath : Scalar path) {e : Template.Error}
    (h : Template.parse path (templateOf path source) = .error e) :
    Search.Encodable ⟨.ofMarked m, path, source⟩ ↔ Scalar e.message := by
  have hextract : (KeySource.ofMarked m).extract path source = .error e := by
    show (m.extract path source).map some = _
    rw [MarkedKeys.extract, h]
    rfl
  have hname : Scalar (KeySource.ofMarked m).name := Text.scalar_ofString "tag"
  unfold Search.Encodable Search.found Search.failure?
  simp only [hextract]
  constructor
  · intro hs
    exact (hs.2 _ List.mem_cons_self).error
  · intro he
    exact ⟨List.forall_mem_nil _, List.forall_mem_singleton.2 ⟨hpath, hname, he⟩⟩

/-- What is shown can be written when the outcome can. -/
theorem MarkedKeys.Shows.scalar {v : Text} (h : m.Shows path source v) (hpath : Scalar path)
    (hsource : Scalar source) (hs : Search.Encodable ⟨.ofMarked m, path, source⟩) : Scalar v := by
  cases h with
  | key hparse hat hmarks hgives hv =>
      rw [encodable_of_parse hparse] at hs
      exact hs v (MarkedKeys.mem_nodesKeys.2 ⟨_, _, _, _, hat, hmarks, hgives, hv⟩)
  | token hparse hv =>
      obtain ⟨rfl, -⟩ :=
        Template.traceable_of_parse (MarkedKeys.scalar_templateOf path hsource) hparse
      rw [encodable_of_refused hpath hparse, Template.Error.scalar_message hpath] at hs
      exact hv.scalar hs

/-- A search whose outcome cannot be written shows a value that cannot,
and that is quoted in the template. -/
theorem exists_shows_of_not_encodable (hpath : Scalar path) (hsource : Scalar source)
    (h : ¬ Search.Encodable ⟨.ofMarked m, path, source⟩) :
    ∃ v code, m.Shows path source v ∧ ¬ Scalar v
      ∧ Template.Source.Reads ⟨templateOf path source, path⟩ code ∧ Quotes code v := by
  cases hparse : Template.parse path (templateOf path source) with
  | ok nodes =>
      rw [encodable_of_parse hparse] at h
      simp only [Classical.not_forall] at h
      obtain ⟨v, hv, hscalar⟩ := h
      obtain ⟨hshows, code, hcode⟩ :=
        (MarkedKeys.scalar_or_shows_key hsource hparse hv).resolve_left hscalar
      exact ⟨v, code, hshows, hscalar, hcode⟩
  | error e =>
      rw [encodable_of_refused hpath hparse] at h
      cases e with
      | oversized n => exact absurd (by simp [Template.Error.message, oversizedMessage]) h
      | malformed fault p place =>
          obtain ⟨rfl, htraceable⟩ :=
            Template.traceable_of_parse (MarkedKeys.scalar_templateOf path hsource) hparse
          rw [Template.Error.scalar_message hpath] at h
          obtain ⟨v, code, hshows, hscalar, hcode⟩ := htraceable.resolve_left h
          exact ⟨v, code, .token hparse hshows, hscalar, hcode⟩

/-- A search for marked elements can be written unless the file leaks. -/
theorem encodable_ofMarked (hpath : Scalar path) (hsource : Scalar source) :
    Search.Encodable ⟨.ofMarked m, path, source⟩ ↔ ¬ m.Leaks path source := by
  have htext : Scalar (templateOf path source) := MarkedKeys.scalar_templateOf path hsource
  constructor
  · intro hs hleaks
    obtain ⟨v, hshows, hconjures⟩ := hleaks
    exact hconjures.not_scalar htext (hshows.scalar hpath hsource hs)
  · intro hleaks
    by_contra hs
    obtain ⟨v, code, hshows, hscalar, hreads, hquotes⟩ :=
      exists_shows_of_not_encodable hpath hsource hs
    exact hleaks ⟨v, hshows, Template.Source.conjures_of_quotes htext hreads hquotes hscalar⟩

end Marked

-- ========================================================== one report

/-- One search adds its outcome. -/
theorem Harvest.encodable_gather {path source : Text} {h h' : Harvest} {k : KeySource}
    (hg : h.gather path source k = .ok h') :
    h'.Encodable ↔ h.Encodable ∧ Search.Encodable ⟨k, path, source⟩ := by
  unfold Search.Encodable Search.found Search.failure? Harvest.Encodable
  rw [← encodable_append]
  unfold gather at hg
  cases hx : k.extract path source with
  | ok o =>
      rw [hx] at hg
      cases o with
      | none =>
          cases hg
          simp
      | some keys =>
          cases hg
          simp [Catalog.keys_union, encodable_eraseDups]
  | error e =>
      rw [hx] at hg
      cases e with
      | oversized n => cases hg
      | malformed fault p place =>
          cases hg
          simp

/-- The searches over a file add their outcomes. -/
theorem encodable_collect {sources : List KeySource} {path source : Text} {h : Harvest}
    (hcollect : KeySource.collect sources path source = .ok h) :
    h.Encodable ↔ ∀ k ∈ sources, Search.Encodable ⟨k, path, source⟩ := by
  have hloop := foldlM_keeps (f := Harvest.gather path source)
    (fun _ _ _ => Harvest.encodable_gather) hcollect
  rw [hloop]
  exact and_iff_right encodable_nil

/-- The searches that settings ask for can be written unless the file
leaks. -/
theorem encodable_sources {c : Config} {path source : Text} (hpath : Scalar path)
    (hsource : Scalar source) :
    (∀ k ∈ c.sources, Search.Encodable ⟨k, path, source⟩) ↔ ¬ c.marked.Leaks path source := by
  rw [Config.sources, List.forall_mem_cons, List.forall_mem_singleton,
    encodable_ofMarked hpath hsource]
  exact and_iff_left (encodable_ofQuoted c.quoted path hsource)

namespace Report

variable {c : Config} {top : Tree} {dir : Location}

/-- A file that leaks, as a run comes upon it. -/
def Leaks (c : Config) (dir : Location) (file : Location × List UInt8) : Prop :=
  c.marked.Leaks (Location.shownFrom dir file.1) (Text.ofBytes file.2)

/-- After a file the report can be written when it could be before and the
searches over the file allow it. -/
theorem encodable_addFile {r r' : Report} {file : Location × List UInt8}
    (h : addFile c.sources dir r file = .ok r') :
    r'.Encodable ↔ r.Encodable ∧ ∀ s ∈ fileSearches c dir file, s.Encodable := by
  unfold addFile at h
  split at h
  · next harvest hcollect =>
      cases h
      have hsearches : harvest.Encodable ↔ ∀ s ∈ fileSearches c dir file, s.Encodable := by
        rw [encodable_collect hcollect, fileSearches, List.forall_mem_map]
      rw [← hsearches]
      unfold Report.Encodable Harvest.Encodable
      rw [← encodable_append, add, Catalog.keys_union, encodable_eraseDups]
  · cases h

/-- After an input the report can be written when it could be before and
every search of the input allows it. -/
theorem encodable_addInput {r r' : Report} {input : Path}
    (h : addInput c top dir r input = .ok r') :
    r'.Encodable
      ↔ r.Encodable ∧ ∀ f ∈ inputFiles c top dir input, ∀ s ∈ fileSearches c dir f, s.Encodable := by
  rcases addInput_cases c top dir r input with ⟨stop, -, hstep⟩ | ⟨l, hopen, hstep⟩
  · rw [h] at hstep
    cases hstep
  · rw [h] at hstep
    unfold inputFiles
    rw [hopen.place]
    exact foldlM_keeps (f := addFile c.sources dir) (fun _ _ _ => encodable_addFile) hstep.symm

/-- A run can be written when all its searches can. -/
theorem encodable_run {inputs : List Path} {r : Report} (h : run c top dir inputs = .ok r) :
    r.Encodable ↔ ∀ s ∈ searches c top dir inputs, s.Encodable := by
  have hloop := foldlM_keeps (f := addInput c top dir) (fun _ _ _ => encodable_addInput) h
  rw [hloop, searches, visited, List.forall_mem_flatMap, List.forall_mem_flatMap]
  exact and_iff_right encodable_nil

/-- A run over files with scalar paths can be written unless one of them
leaks. -/
theorem encodable_run_iff {inputs : List Path} {r : Report} (h : run c top dir inputs = .ok r)
    (hpaths : ∀ f ∈ visited c top dir inputs, Scalar (Location.shownFrom dir f.1)) :
    r.Encodable ↔ ∀ f ∈ visited c top dir inputs, ¬ Leaks c dir f := by
  rw [encodable_run h, searches, List.forall_mem_flatMap]
  refine forall₂_congr fun f hf => ?_
  rw [fileSearches, List.forall_mem_map, encodable_sources (hpaths f hf) (Text.scalar_ofBytes f.2)]
  rfl

-- ============================================================= writing

/-- The printed keys are those of the report, sorted or not. -/
theorem mem_keyList {r : Report} {sorted : Bool} {key : Text} :
    key ∈ r.keyList sorted ↔ key ∈ r.keys.keys := by
  unfold keyList
  split
  · exact ((List.mergeSort_perm r.keys.entries _).map Prod.fst).mem_iff
  · exact Iff.rfl

/-- The JSON of a report has no other texts than its keys and failures. -/
theorem scalar_toJson {r : Report} {sorted : Bool} :
    Scalar (Json.render (r.toJson sorted)) ↔ r.Encodable := by
  have hkeys : (∀ t ∈ Json.textsOf ((r.keyList sorted).map .text), Scalar t)
      ↔ ∀ key ∈ r.keys.keys, Scalar key := by
    simp only [Json.textsOf_eq, List.forall_mem_flatMap, List.forall_mem_map, Json.Value.texts,
      List.forall_mem_singleton, mem_keyList]
  have hfailed : (∀ t ∈ Json.textsOf (r.failed.map Failure.toJson), Scalar t)
      ↔ ∀ x ∈ r.failed, x.Encodable := by
    simp only [Json.textsOf_eq, List.forall_mem_flatMap, List.forall_mem_map]
    refine forall₂_congr fun x _ => ?_
    simp [Failure.toJson, Json.Value.texts, Json.textsOfMembers, Failure.encodable_iff]
  rw [Json.scalar_render, Report.Encodable, KeyHarvest.Encodable, ← hkeys, ← hfailed]
  simp only [toJson, Json.Value.texts, Json.textsOfMembers, List.forall_mem_cons,
    List.forall_mem_append, Text.scalar_ofString]
  simp

end Report

/-- What goes to the standard output and to a file can be written. -/
def Command.Outcome.Writable (o : Command.Outcome) : Prop :=
  (Text.toString? o.out).isSome ∧ ∀ w ∈ o.written, (Text.toString? w.2).isSome

/-- What is printed for a report can be written when the report can. -/
theorem Command.writable_reported {dir : Location} {o : Options} {r : Report} :
    (reported dir o r).Writable ↔ r.Encodable := by
  unfold Outcome.Writable reported
  simp only [Text.toString?_isSome]
  cases o.output <;> simp [Report.scalar_toJson]

/-- A report can be written exactly when no file leaks: the keys and the
failures of a file have no surrogates exactly when the file shows no value
with one that an escape spells, and neither the standard output nor the
file that is written gets one when this holds for all files of the run. -/
theorem report_writable (c : Config) :
    (∀ path source h, Scalar path → Scalar source →
      KeySource.collect c.sources path source = .ok h →
      (h.Encodable ↔ ¬ c.marked.Leaks path source))
    ∧ ∀ top dir inputs r, Report.run c top dir inputs = .ok r →
      (∀ f ∈ Report.visited c top dir inputs, Scalar (Location.shownFrom dir f.1)) →
      ∀ o, (Command.reported dir o r).Writable
        ↔ ∀ f ∈ Report.visited c top dir inputs, ¬ Report.Leaks c dir f := by
  refine ⟨fun path source h hpath hsource hcollect => ?_, fun top dir inputs r hrun hpaths o => ?_⟩
  · rw [encodable_collect hcollect, encodable_sources hpath hsource]
  · rw [Command.writable_reported]
    exact Report.encodable_run_iff hrun hpaths

/-- A template with a bound key that spells a pair of surrogates. -/
theorem Template.parse_pair :
    Template.parse "a.html" "<translate [key]=\"'\\ud83d\\ude00'\"/>"
      = .ok [.element "translate" [] [⟨"key", .sourced
          (.literal (.text [CodePoint.ofNat 0xD83D, CodePoint.ofNat 0xDE00])) "'\\ud83d\\ude00'"⟩]
          [] [] [] 1] := by
  have hcode : Expr.parseBinding "'\\ud83d\\ude00'"
      = .ok (.sourced (.literal (.text [CodePoint.ofNat 0xD83D, CodePoint.ofNat 0xDE00]))
          "'\\ud83d\\ude00'") := by
    unfold Expr.parseBinding
    rw [Expr.parseAt_eq]
    cbv
  -- the value of the binding plays no part in what is built around it
  generalize Expr.sourced (.literal (.text [CodePoint.ofNat 0xD83D, CodePoint.ofNat 0xDE00]))
    "'\\ud83d\\ude00'" = e at hcode ⊢
  have hroot : Markup.parse (mask "<translate [key]=\"'\\ud83d\\ude00'\"/>")
      = ⟨.document, 0, 35, false, [⟨.element, 0, 35, false, [⟨.selfClosingTag, 0, 35, false,
          [⟨.tagName, 1, 10, false, []⟩, ⟨.attribute, 11, 33, false,
            [⟨.attributeName, 11, 16, false, []⟩, ⟨.attributeValue, 18, 32, false, []⟩]⟩]⟩]⟩]⟩ := by
    cbv
  let s : Template.Source := ⟨"<translate [key]=\"'\\ud83d\\ude00'\"/>", "a.html"⟩
  let key : Markup.Node := ⟨.attribute, 11, 33, false,
    [⟨.attributeName, 11, 16, false, []⟩, ⟨.attributeValue, 18, 32, false, []⟩]⟩
  have hkey : s.attributes [⟨.tagName, 1, 10, false, []⟩, key]
      = .ok { Template.Attributes.empty with inputs := [⟨"key", e⟩] } := by
    have hparts : s.attributeParts key = .ok ("[key]", "'\\ud83d\\ude00'") := by decide +kernel
    have hrole : Template.Role.ofName "[key]" = .input "key" := by decide
    rw [Template.Source.attributes, if_neg (by decide), Template.Source.attributes, if_pos rfl, hparts]
    show (s.classify key "[key]" "'\\ud83d\\ude00'" >>= fun a => s.attributes [] >>= fun rest =>
      pure (a.append rest)) = _
    unfold Template.Source.classify Template.Source.bound
    simp only [hrole, hcode]
    rfl
  have hcontent : s.content 0 35 [⟨.element, 0, 35, false, [⟨.selfClosingTag, 0, 35, false,
      [⟨.tagName, 1, 10, false, []⟩, key]⟩]⟩]
        = .ok [.element "translate" [] [⟨"key", e⟩] [] [] [] 1] := by
    rw [Template.Source.content, Template.Source.element]
    dsimp only [List.headD_cons]
    rw [hkey]
    rfl
  show (s.check (Markup.parse (mask s.text)) >>= fun _ =>
    s.content 0 (Markup.parse (mask s.text)).stop (Markup.parse (mask s.text)).children) = _
  rw [hroot]
  exact bind_eq_ok.2 ⟨(), by decide +kernel, hcontent⟩

/-- A bound key that spells a pair of surrogates, which cannot be written,
and a run over a file with a reference to a surrogate, which can. -/
theorem report_writable_pair :
    let c := Config.defaults
    let source : Text := "<translate [key]=\"'\\ud83d\\ude00'\"/>"
    let top : Tree := .directory [("b.html", .file [60, 116, 114, 97, 110, 115, 108, 97, 116, 101, 32,
      107, 101, 121, 61, 34, 38, 35, 120, 68, 56, 48, 48, 59, 34, 47, 62])]
    let inputs : List Path := [Path.ofText "b.html"]
    Scalar "a.html" ∧ Scalar source
      ∧ (∃ h, KeySource.collect c.sources "a.html" source = .ok h
        ∧ h.keys.keys = [[CodePoint.ofNat 0xD83D, CodePoint.ofNat 0xDE00]])
      ∧ c.marked.Leaks "a.html" source
      ∧ (∀ f ∈ Report.visited c top [] inputs, Scalar (Location.shownFrom [] f.1))
      ∧ (∃ r, Report.run c top [] inputs = .ok r ∧ r.keys.keys = [[CodePoint.ofNat 0xFFFD]]
        ∧ ∀ o, (Command.reported [] o r).Writable)
      ∧ ∀ f ∈ Report.visited c top [] inputs, ¬ Report.Leaks c [] f := by
  intro c source top inputs
  have hpath : Scalar "a.html" := by decide
  have hsource : Scalar source := by decide
  have hpaths : ∀ f ∈ Report.visited c top [] inputs, Scalar (Location.shownFrom [] f.1) := by
    decide +kernel
  have hextract : (KeySource.ofMarked c.marked).extract "a.html" source
      = .ok (some (Catalog.empty.insertKeys [[CodePoint.ofNat 0xD83D, CodePoint.ofNat 0xDE00]])) := by
    have htemplate : MarkedKeys.templateOf "a.html" source = source := by decide +kernel
    show (c.marked.extract "a.html" source).map some = _
    rw [MarkedKeys.extract, htemplate, Template.parse_pair]
    rfl
  have hharvest : ∃ h, KeySource.collect c.sources "a.html" source = .ok h
      ∧ h.keys.keys = [[CodePoint.ofNat 0xD83D, CodePoint.ofNat 0xDE00]] := by
    rw [KeySource.collect, Config.sources, List.foldlM_cons, Harvest.gather, hextract]
    exact ⟨_, rfl, by decide +kernel⟩
  have hleaks : c.marked.Leaks "a.html" source := by
    obtain ⟨h, hcollect, hkeys⟩ := hharvest
    by_contra hclean
    have hscalar := (((report_writable c).1 _ _ h hpath hsource hcollect).2 hclean).1
    rw [hkeys, List.forall_mem_singleton] at hscalar
    exact absurd hscalar (by decide)
  have hfound : (Report.run c top [] inputs).toOption.map (fun r => (r.keys.keys, r.failed))
      = some ([[CodePoint.ofNat 0xFFFD]], []) := by
    decide +kernel
  obtain ⟨r, hr, hfound⟩ := Option.map_eq_some_iff.1 hfound
  obtain ⟨hkeys, hfailed⟩ := Prod.mk.inj hfound
  have hrun : Report.run c top [] inputs = .ok r := by
    cases hres : Report.run c top [] inputs with
    | ok r' =>
        rw [hres] at hr
        cases hr
        rfl
    | error e =>
        rw [hres] at hr
        cases hr
  have hwritable : ∀ o, (Command.reported [] o r).Writable := by
    intro o
    rw [Command.writable_reported, Report.Encodable, hkeys, hfailed]
    exact ⟨by decide, List.forall_mem_nil _⟩
  refine ⟨hpath, hsource, hharvest, hleaks, hpaths, ⟨r, hrun, hkeys, hwritable⟩, ?_⟩
  let o : Command.Options := ⟨inputs, none, none, false, false⟩
  exact ((report_writable c).2 top [] inputs r hrun hpaths o).1 (hwritable o)

end KeyHarvest
