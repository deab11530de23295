/-
How far a bad file reaches. A template that is refused is a failure of one
search on one file, and it is recorded; a numeral that is too long is
none, and nothing between the numeral and the run holds it up. So a file
stays contained exactly when its template does not overstep: only then
does a search answer with keys or with a fault, and only then do the
searches over the file give a harvest. A run over many files is stopped by
a file exactly when it reaches one that oversteps (`failures_contained`).
-/
import KeyHarvest.Extraction.Report
import KeyHarvest.Proofs.Template.Unmarked
import KeyHarvest.Proofs.Text.Scalar

namespace KeyHarvest

open Text (Scalar)

-- ========================================================== one search

namespace MarkedKeys

/-- A file whose template oversteps. -/
def Oversteps (path source : Text) : Prop :=
  Template.Source.Oversteps ⟨templateOf path source, path⟩

variable {m : MarkedKeys} {path source : Text}

/-- A marker refuses a source exactly as the template's reader does. -/
theorem refusal?_extract :
    refusal? (m.extract path source)
      = refusal? (Template.parse path (templateOf path source)) := by
  rw [extract, refusal?_bind_pure]

/-- A marker stops at the limit of the digits exactly where the source
oversteps it. -/
theorem extract_eq_oversized :
    (∃ k, m.extract path source = .error (.oversized k)) ↔ Oversteps path source := by
  rw [Oversteps, ← Template.parse_eq_oversized]
  simp only [← refusal?_eq_some, refusal?_extract]

/-- A search finds keys or calls the template malformed, unless it
oversteps. -/
theorem extract_contained :
    ((∃ keys, m.extract path source = .ok keys)
        ∨ ∃ fault p place, m.extract path source = .error (.malformed fault p place))
      ↔ ¬ Oversteps path source := by
  rw [← extract_eq_oversized]
  cases m.extract path source with
  | ok keys => simp
  | error e => cases e <;> simp

end MarkedKeys

-- ======================================================== all searches

/-- The errors that are not recorded. -/
def unrecorded? : Template.Error → Option Template.Error
  | .malformed _ _ _ => none
  | .oversized n => some (.oversized n)

/-- Only what is not recorded passes a search over a file. -/
theorem refusal?_gather (path source : Text) (h : Harvest) (k : KeySource) :
    refusal? (h.gather path source k)
      = (refusal? (k.extract path source)).bind unrecorded? := by
  unfold Harvest.gather
  cases k.extract path source with
  | ok keys => cases keys <;> rfl
  | error e => cases e <;> rfl

/-- The searches that settings ask for are stopped by a numeral alone. -/
theorem refusal?_collect (c : Config) (path source : Text) :
    refusal? (KeySource.collect c.sources path source)
      = (refusal? (c.marked.extract path source)).bind unrecorded? := by
  rw [KeySource.collect, refusal?_foldlM (refusal?_gather path source), Config.sources,
    findSome?_cons_or, findSome?_cons_or]
  have hmarked : refusal? ((KeySource.ofMarked c.marked).extract path source)
      = refusal? (c.marked.extract path source) := by
    show refusal? ((c.marked.extract path source).map some) = _
    cases c.marked.extract path source <;> rfl
  rw [hmarked]
  exact Option.or_none

/-- The searches over a file give a harvest, unless its template
oversteps. -/
theorem collect_contained {c : Config} {path source : Text} :
    (∃ h, KeySource.collect c.sources path source = .ok h)
      ↔ ¬ MarkedKeys.Oversteps path source := by
  rw [← refusal?_eq_none, refusal?_collect, ← MarkedKeys.extract_eq_oversized (m := c.marked)]
  cases c.marked.extract path source with
  | ok keys => simp
  | error e => cases e <;> simp [unrecorded?]

-- ============================================================ one run

namespace Report

/-- A file that oversteps, as a run comes upon it. -/
def Oversteps (dir : Location) (file : Location × List UInt8) : Prop :=
  MarkedKeys.Oversteps (Location.shownFrom dir file.1) (Text.ofBytes file.2)

variable {c : Config} {top : Tree} {dir : Location}

/-- A file is refused where one of the searches over it is, with the same
limit. -/
theorem refusal?_addFile (r : Report) (file : Location × List UInt8) :
    refusal? (addFile c.sources dir r file)
      = (refusal? (KeySource.collect c.sources (Location.shownFrom dir file.1)
          (Text.ofBytes file.2))).map .oversized := by
  unfold addFile
  cases KeySource.collect c.sources (Location.shownFrom dir file.1) (Text.ofBytes file.2) <;> rfl

/-- The files of an input are all searched, unless one of them
oversteps. -/
theorem foldlM_addFile_eq_ok (files : List (Location × List UInt8)) (r : Report) :
    (∃ r', files.foldlM (addFile c.sources dir) r = .ok r') ↔ ∀ f ∈ files, ¬ Oversteps dir f := by
  rw [← refusal?_eq_none, refusal?_foldlM refusal?_addFile, List.findSome?_eq_none_iff]
  refine forall₂_congr fun f _ => ?_
  rw [Option.map_eq_none_iff, refusal?_eq_none, collect_contained, Oversteps]

/-- What stops the search of the files of an input is a numeral. -/
theorem foldlM_addFile_eq_error {files : List (Location × List UInt8)} {r : Report} {e : Stop}
    (h : files.foldlM (addFile c.sources dir) r = .error e) : ∃ e', e = .oversized e' := by
  rw [← refusal?_eq_some, refusal?_foldlM refusal?_addFile] at h
  obtain ⟨f, -, hf⟩ := List.exists_of_findSome?_eq_some h
  obtain ⟨e', -, rfl⟩ := Option.map_eq_some_iff.1 hf
  exact ⟨e', rfl⟩

/-- An input that opens is searched to its end, or one of its files
oversteps and stops the search. -/
theorem addInput_of_opens {input : Path} {l : Location} (hopen : Opens c top dir input l)
    (r : Report) :
    ((∃ r', addInput c top dir r input = .ok r') ∧ ∀ f ∈ filesOf c top l, ¬ Oversteps dir f)
      ∨ (∃ e, addInput c top dir r input = .error (.oversized e))
        ∧ ∃ f ∈ filesOf c top l, Oversteps dir f := by
  rw [hopen.addInput_eq, foldlM_addFile_eq_ok]
  by_cases hfine : ∀ f ∈ filesOf c top l, ¬ Oversteps dir f
  · exact .inl ⟨hfine, hfine⟩
  · right
    refine ⟨?_, by simpa using hfine⟩
    cases hf : (filesOf c top l).foldlM (addFile c.sources dir) r with
    | ok r' => exact absurd ((foldlM_addFile_eq_ok _ r).1 ⟨r', hf⟩) hfine
    | error e =>
        obtain ⟨e', rfl⟩ := foldlM_addFile_eq_error hf
        exact ⟨e', rfl⟩

/-- A run that has come some way is stopped by a file exactly when it
reaches an input with one that oversteps. -/
theorem foldlM_addInput_eq_oversized (inputs : List Path) (r : Report) :
    (∃ e, inputs.foldlM (addInput c top dir) r = .error (.oversized e))
      ↔ Reaches
        (fun input => ∃ l, Opens c top dir input l ∧ ∀ f ∈ filesOf c top l, ¬ Oversteps dir f)
        (fun input => ∃ l, Opens c top dir input l ∧ ∃ f ∈ filesOf c top l, Oversteps dir f)
        inputs := by
  induction inputs generalizing r with
  | nil => simp [pure, Except.pure]
  | cons input inputs ih =>
      rw [List.foldlM_cons, reaches_cons]
      rcases addInput_cases c top dir r input with ⟨stop, hblocks, hstep⟩ | ⟨l, hopen, -⟩
      · -- an input that does not open stops the run, but no file does
        rw [hstep]
        constructor
        · intro h
          obtain ⟨e, he⟩ := h
          cases Except.error.inj he
          cases hblocks
        · intro h
          rcases h with ⟨l, hl, -⟩ | ⟨⟨l, hl, -⟩, -⟩
          · exact absurd hl hblocks.not_opens
          · exact absurd hl hblocks.not_opens
      · rcases addInput_of_opens hopen r with ⟨⟨r', hstep⟩, hfine⟩ | ⟨⟨e, hstep⟩, hover⟩
        · have hnone : ¬ ∃ l, Opens c top dir input l ∧ ∃ f ∈ filesOf c top l, Oversteps dir f := by
            intro h
            obtain ⟨l', hl', f, hf, hover⟩ := h
            rw [hl'.unique hopen] at hf
            exact hfine f hf hover
          rw [hstep]
          show (∃ e, inputs.foldlM (addInput c top dir) r' = .error (.oversized e)) ↔ _
          rw [ih r', or_iff_right hnone]
          exact (and_iff_right ⟨l, hopen, hfine⟩).symm
        · rw [hstep]
          exact ⟨fun _ => .inl ⟨l, hopen, hover⟩, fun _ => ⟨e, rfl⟩⟩

end Report

-- ======================================================== containment

/-- Failures are contained exactly as far as no template oversteps. A
search over a file finds keys or calls the template malformed, and the
searches over a file give a harvest, exactly when its template does not
overstep. A run is stopped by a file exactly when an input holds one that
does, and all inputs before it open and hold none.

The text of a file is one that can be encoded, as every text is that was
decoded from bytes; another cannot be handed to a grammar. How deep the
markup and the expressions of a file are nested makes no difference here;
a limit that an interpreter sets to recursion is outside the model. -/
theorem failures_contained (c : Config) :
    (∀ path source, Scalar source →
      (((∃ keys, c.marked.extract path source = .ok keys)
          ∨ ∃ fault p place, c.marked.extract path source = .error (.malformed fault p place))
        ↔ ¬ MarkedKeys.Oversteps path source))
    ∧ (∀ path source, Scalar source →
      ((∃ h, KeySource.collect c.sources path source = .ok h)
        ↔ ¬ MarkedKeys.Oversteps path source))
    ∧ ∀ (top : Tree) (dir : Location) (inputs : List Path),
      (∃ e, Report.run c top dir inputs = .error (.oversized e))
        ↔ Reaches
          (fun input => ∃ l, Report.Opens c top dir input l
            ∧ ∀ f ∈ Report.filesOf c top l, ¬ Report.Oversteps dir f)
          (fun input => ∃ l, Report.Opens c top dir input l
            ∧ ∃ f ∈ Report.filesOf c top l, Report.Oversteps dir f) inputs := by
  refine ⟨?_, ?_, ?_⟩
  · intro path source _
    exact MarkedKeys.extract_contained
  · intro path source _
    exact collect_contained
  · intro top dir inputs
    exact Report.foldlM_addInput_eq_oversized inputs .empty

/-- A file with a reference of 4301 digits and nothing else is not
contained. -/
theorem failures_contained_reference :
    Scalar (Markup.reference (List.replicate 4301 (CodePoint.ofChar '1')))
    ∧ ¬ ((∃ keys, Config.defaults.marked.extract (Text.ofString "a.html")
            (Markup.reference (List.replicate 4301 (CodePoint.ofChar '1'))) = .ok keys)
        ∨ ∃ fault p place, Config.defaults.marked.extract (Text.ofString "a.html")
            (Markup.reference (List.replicate 4301 (CodePoint.ofChar '1')))
              = .error (.malformed fault p place))
    ∧ ¬ ∃ h, KeySource.collect Config.defaults.sources (Text.ofString "a.html")
        (Markup.reference (List.replicate 4301 (CodePoint.ofChar '1'))) = .ok h := by
  have hover : MarkedKeys.Oversteps (Text.ofString "a.html")
      (Markup.reference (List.replicate 4301 (CodePoint.ofChar '1'))) := by
    have hfile : Script.isComponentFile (Text.ofString "a.html") = false := by decide
    unfold MarkedKeys.Oversteps MarkedKeys.templateOf
    rw [hfile]
    apply Template.Source.oversteps_reference
    · intro c hc
      rw [List.eq_of_mem_replicate hc]
      decide
    · rw [List.length_replicate]
      decide
  have hscalar : Scalar (Markup.reference (List.replicate 4301 (CodePoint.ofChar '1'))) := by
    refine Text.scalar_cons.2 ⟨by decide, Text.scalar_cons.2 ⟨by decide, ?_⟩⟩
    intro c hc
    rw [List.eq_of_mem_replicate hc]
    decide
  obtain ⟨hextract, hcollect, -⟩ := failures_contained Config.defaults
  exact ⟨hscalar, fun h => (hextract _ _ hscalar).1 h hover, fun h => (hcollect _ _ hscalar).1 h hover⟩

end KeyHarvest
