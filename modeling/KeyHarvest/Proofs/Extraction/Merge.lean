/-
What a run gathers. A run makes searches: every search of the settings
over every file of every input, the inputs as they are named, the files in
the order of discovery (`Report.searches`). Each search has an outcome of
its own, keys or a record of its failure, and the report is the outcomes
put in a row (`run_merges`).

# The invariant

Three loops are nested: searches, files, inputs. What each of them keeps
is that keys are those from before with the found ones behind, later
repetitions left out, and that failures are those from before with the new
ones behind (`Tallies` inside a file, `Gains` across files). Both relations
add up along a list, and `foldlM_adds` is the loop rule for such
relations: a loop adds what its turns add, in order.
-/
import KeyHarvest.Extraction.Report
import KeyHarvest.Proofs.Catalog.Insert

namespace KeyHarvest

/-- A search over a file, as it is shown and as it reads. -/
structure Search where
  source : KeySource
  path : Text
  text : Text

namespace Search

/-- The keys that a search finds; none when it refuses the file. -/
def found (s : Search) : List Text :=
  match s.source.extract s.path s.text with
  | .ok (some keys) => keys.keys
  | _ => []

/-- The record of a search that refuses the file. -/
def failure? (s : Search) : Option Failure :=
  match s.source.extract s.path s.text with
  | .error e => some ⟨s.path, s.source.name, e.message⟩
  | .ok _ => none

/-- A search that ends with keys, with nothing, or with a refusal that can
be recorded. -/
def Ends (s : Search) : Prop :=
  ∀ e, s.source.extract s.path s.text = .error e → ∃ fault p place, e = .malformed fault p place

instance (s : Search) : Decidable s.Ends :=
  match h : s.source.extract s.path s.text with
  | .ok _ => .isTrue fun e he => by rw [h] at he; cases he
  | .error (.malformed fault p place) => .isTrue fun e he => by
      rw [h] at he
      cases he
      exact ⟨fault, p, place, rfl⟩
  | .error (.oversized n) => .isFalse fun hends => by
      obtain ⟨fault, p, place, he⟩ := hends _ h
      cases he

end Search

/-- The keys that searches find, with repetitions. -/
def foundBy (ss : List Search) : List Text := ss.flatMap Search.found

/-- The records of the searches that fail. -/
def failuresOf (ss : List Search) : List Failure := ss.filterMap Search.failure?

theorem foundBy_append (ss ts : List Search) : foundBy (ss ++ ts) = foundBy ss ++ foundBy ts :=
  List.flatMap_append

theorem failuresOf_append (ss ts : List Search) :
    failuresOf (ss ++ ts) = failuresOf ss ++ failuresOf ts :=
  List.filterMap_append

-- =========================================================== one file

/-- What is gathered after some searches, from what was before them. -/
structure Tallies (h : Harvest) (ss : List Search) (h' : Harvest) : Prop where
  keys : h'.keys.keys = (h.keys.keys ++ foundBy ss).eraseDups
  failed : h'.failed = h.failed ++ failuresOf ss

namespace Tallies

variable {h h' h'' : Harvest} {ss ts : List Search}

/-- No search changes nothing. -/
theorem refl (h : Harvest) : Tallies h [] h where
  keys := by
    show h.keys.keys = (h.keys.keys ++ []).eraseDups
    rw [List.append_nil, eraseDups_of_nodup h.keys.nodup_keys]
  failed := (List.append_nil h.failed).symm

/-- What searches tally goes on with what later ones do. -/
theorem trans (hs : Tallies h ss h') (ht : Tallies h' ts h'') : Tallies h (ss ++ ts) h'' where
  keys := by rw [ht.keys, hs.keys, eraseDups_append_left, List.append_assoc, foundBy_append]
  failed := by rw [ht.failed, hs.failed, List.append_assoc, failuresOf_append]

end Tallies

namespace Report

variable (c : Config) (top : Tree) (dir : Location)

/-- The searches over a file, in order. -/
def fileSearches (file : Location × List UInt8) : List Search :=
  c.sources.map fun k => ⟨k, Location.shownFrom dir file.1, Text.ofBytes file.2⟩

/-- The files that an input stands for; none when it does not exist. -/
def inputFiles (input : Path) : List (Location × List UInt8) :=
  ((top.locate? dir input).map (filesOf c top)).getD []

/-- The files that a run visits, in order. -/
def visited (inputs : List Path) : List (Location × List UInt8) :=
  inputs.flatMap (inputFiles c top dir)

/-- The searches of a run, in order. -/
def searches (inputs : List Path) : List Search :=
  (visited c top dir inputs).flatMap (fileSearches c dir)

/-- The report after some files, from the one before them. -/
structure Gains (r : Report) (fs : List (Location × List UInt8)) (r' : Report) : Prop where
  keys : r'.keys.keys = (r.keys.keys ++ foundBy (fs.flatMap (fileSearches c dir))).eraseDups
  files : r'.files = r.files + fs.length
  failed : r'.failed = r.failed ++ failuresOf (fs.flatMap (fileSearches c dir))

variable {c top dir}

namespace Gains

variable {r r' r'' : Report} {fs gs : List (Location × List UInt8)}

/-- No file changes nothing. -/
theorem refl (r : Report) : Gains c dir r [] r where
  keys := by
    show r.keys.keys = (r.keys.keys ++ []).eraseDups
    rw [List.append_nil, eraseDups_of_nodup r.keys.nodup_keys]
  files := rfl
  failed := (List.append_nil r.failed).symm

/-- What files add goes on with what later ones do. -/
theorem trans (hf : Gains c dir r fs r') (hg : Gains c dir r' gs r'') :
    Gains c dir r (fs ++ gs) r'' where
  keys := by
    rw [hg.keys, hf.keys, eraseDups_append_left, List.append_assoc, ← foundBy_append,
      ← List.flatMap_append]
  files := by rw [hg.files, hf.files, Nat.add_assoc, List.length_append]
  failed := by
    rw [hg.failed, hf.failed, List.append_assoc, ← failuresOf_append, ← List.flatMap_append]

end Gains

end Report

end KeyHarvest
