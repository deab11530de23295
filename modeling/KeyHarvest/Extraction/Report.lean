/-
Extraction over files and directories. The inputs are taken in the order
in which they are named, the files of each in the order of discovery, and
what they give is united. A file is searched again when it is reached
again. An input that does not exist stops the run, and so does one with a
malformed line among the rules that exclude files.

Paths are shown relative to the working directory where they can be.
-/
import KeyHarvest.Extraction.Source
import KeyHarvest.Files.Discovery

namespace KeyHarvest

/-- What a run has found: keys, the number of files searched, and the
searches that refused a file. -/
structure Report where
  keys : Catalog
  files : Nat
  failed : List Failure

/-- Why a run stopped: an input is missing, after some failures were
recorded, a line of the rules that exclude files is malformed, or a numeral
is too long. -/
inductive Stop where
  | missing (path : Text) (failed : List Failure)
  | malformedRule (line : Text)
  | oversized (error : Template.Error)
  deriving DecidableEq, Repr

/-- Whether a stop is one that its message lets the user mend. -/
def Stop.isForeseen : Stop → Bool
  | .missing _ _ => true
  | .malformedRule _ | .oversized _ => false

namespace Report

/-- Nothing yet. -/
def empty : Report := ⟨.empty, 0, []⟩

/-- The report after one more file. -/
def add (r : Report) (h : Harvest) : Report :=
  ⟨r.keys.union h.keys, r.files + 1, r.failed ++ h.failed⟩

/-- The report after a file at a location. -/
def addFile (sources : List KeySource) (dir : Location) (r : Report)
    (file : Location × List UInt8) : Except Stop Report :=
  match KeySource.collect sources (Location.shownFrom dir file.1) (Text.ofBytes file.2) with
  | .ok h => .ok (r.add h)
  | .error e => .error (.oversized e)

/-- The directory whose ignore file counts for an input: the input itself
or the directory it is in. -/
def baseOf (top : Tree) (l : Location) : Location :=
  if top.hasDirectory l then l else l.dropLast

/-- The lines of the rules that count for an input at a location. -/
def rulesFor (c : Config) (top : Tree) (l : Location) : List Text :=
  Ignore.linesAt top (baseOf top l) c.exclude

/-- The files that an input at a location stands for. -/
def filesOf (c : Config) (top : Tree) (l : Location) : List (Location × List UInt8) :=
  Selection.find ⟨c.extensions, Ignore.excludes (rulesFor c top l)⟩ top l

/-- The report after an input. Its rules are read before any of its files
is. -/
def addInput (c : Config) (top : Tree) (dir : Location) (r : Report) (input : Path) :
    Except Stop Report :=
  match top.locate? dir input with
  | none => .error (.missing input.toText r.failed)
  | some l =>
      match Ignore.malformed? (rulesFor c top l) with
      | some line => .error (.malformedRule line)
      | none => (filesOf c top l).foldlM (addFile c.sources dir) r

/-- An input that can be searched at a location: it is there, and all its
rules can be read. -/
structure Opens (c : Config) (top : Tree) (dir : Location) (input : Path) (l : Location) : Prop where
  place : top.locate? dir input = some l
  rules : Ignore.malformed? (rulesFor c top l) = none

/-- What stops a run at an input that cannot be searched, after some
failures. -/
inductive Blocks (c : Config) (top : Tree) (dir : Location) (failed : List Failure)
    (input : Path) : Stop → Prop where
  | missing (h : top.locate? dir input = none) :
      Blocks c top dir failed input (.missing input.toText failed)
  | malformedRule {l : Location} {line : Text} (hplace : top.locate? dir input = some l)
      (hline : Ignore.malformed? (rulesFor c top l) = some line) :
      Blocks c top dir failed input (.malformedRule line)

section Input

variable {c : Config} {top : Tree} {dir : Location} {input : Path} {l l' : Location}

/-- An input opens at one location at most. -/
theorem Opens.unique (h : Opens c top dir input l) (h' : Opens c top dir input l') : l = l' :=
  Option.some.inj (h.place.symm.trans h'.place)

/-- An input that stops a run does not open. -/
theorem Blocks.not_opens {failed : List Failure} {stop : Stop}
    (h : Blocks c top dir failed input stop) : ¬ Opens c top dir input l := by
  intro hopen
  cases h with
  | missing hnone =>
      rw [hopen.place] at hnone
      cases hnone
  | malformedRule hplace hline =>
      obtain rfl := Option.some.inj (hopen.place.symm.trans hplace)
      rw [hopen.rules] at hline
      cases hline

/-- What an input does to a report: it stops the run, or it opens and its
files are searched. -/
theorem addInput_cases (c : Config) (top : Tree) (dir : Location) (r : Report) (input : Path) :
    (∃ stop, Blocks c top dir r.failed input stop ∧ addInput c top dir r input = .error stop)
      ∨ ∃ l, Opens c top dir input l
        ∧ addInput c top dir r input = (filesOf c top l).foldlM (addFile c.sources dir) r := by
  unfold addInput
  cases hplace : top.locate? dir input with
  | none => exact .inl ⟨_, .missing hplace, rfl⟩
  | some l =>
      cases hline : Ignore.malformed? (rulesFor c top l) with
      | some line => exact .inl ⟨_, .malformedRule hplace hline, by simp only [hline]⟩
      | none => exact .inr ⟨l, ⟨hplace, hline⟩, by simp only [hline]⟩

/-- An input that opens has its files searched. -/
theorem Opens.addInput_eq (h : Opens c top dir input l) (r : Report) :
    addInput c top dir r input = (filesOf c top l).foldlM (addFile c.sources dir) r := by
  rcases addInput_cases c top dir r input with ⟨stop, hblocks, -⟩ | ⟨l', h', hstep⟩
  · exact absurd h hblocks.not_opens
  · rw [hstep, h.unique h']

instance : Decidable (∃ l, Opens c top dir input l) :=
  match hplace : top.locate? dir input with
  | none => .isFalse fun h => by
      obtain ⟨l, hl⟩ := h
      have hblocks : Blocks c top dir [] input (.missing input.toText []) := .missing hplace
      exact hblocks.not_opens hl
  | some l =>
      decidable_of_iff (Ignore.malformed? (rulesFor c top l) = none)
        ⟨fun h => ⟨l, hplace, h⟩, fun h => by
          obtain ⟨l', hl'⟩ := h
          obtain rfl := Option.some.inj (hplace.symm.trans hl'.place)
          exact hl'.rules⟩

end Input

/-- The report of a run over inputs, seen from a working directory. -/
def run (c : Config) (top : Tree) (dir : Location) (inputs : List Path) : Except Stop Report :=
  inputs.foldlM (addInput c top dir) .empty

/-- The keys in the order of discovery, or by code point. -/
def keyList (r : Report) (sorted : Bool) : List Text :=
  if sorted then r.keys.sort.keys else r.keys.keys

end Report

end KeyHarvest
