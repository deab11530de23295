/-
Keys of one file. Several searches look at the same text, each by itself:
one that refuses the text is recorded as a failure and the others go on.
The keys of all are united in the order of the searches.

A numeral that is too long to be read is no refusal of the text. It stops
the whole extraction.
-/
import KeyHarvest.Config.Basic

namespace KeyHarvest

/-- A search for keys: its name, and what it finds in a file; none when
the file is none of its business. -/
structure KeySource where
  name : Text
  extract : (path source : Text) → Except Template.Error (Option Catalog)

/-- A search that refused a file. -/
structure Failure where
  path : Text
  source : Text
  error : Text
  deriving DecidableEq, Repr

/-- What was gathered so far: keys and failures. -/
structure Harvest where
  keys : Catalog
  failed : List Failure

namespace Harvest

/-- Nothing yet. -/
def empty : Harvest := ⟨.empty, []⟩

/-- One more search over a file. -/
def gather (path source : Text) (h : Harvest) (k : KeySource) : Except Template.Error Harvest :=
  match k.extract path source with
  | .ok none => .ok h
  | .ok (some keys) => .ok { h with keys := h.keys.union keys }
  | .error (.malformed fault p place) =>
      .ok { h with failed :=
        h.failed ++ [⟨path, k.name, (Template.Error.malformed fault p place).message⟩] }
  | .error e => .error e

end Harvest

namespace KeySource

/-- The keys of a file, with a record of the searches that refused it. -/
def collect (sources : List KeySource) (path source : Text) : Except Template.Error Harvest :=
  sources.foldlM (Harvest.gather path source) .empty

/-- The keys of a file, if no search refuses it; the first refusal
otherwise. -/
def collectStrictly (sources : List KeySource) (path source : Text) :
    Except Template.Error Catalog :=
  sources.foldlM (fun keys k => do
    match ← k.extract path source with
    | none => return keys
    | some more => return keys.union more) .empty

/-- The search for marked elements. -/
def ofMarked (m : MarkedKeys) : KeySource :=
  ⟨"tag", fun path source => (m.extract path source).map some⟩

/-- The search for quoted keys. -/
def ofQuoted (q : QuotedKeys) : KeySource :=
  ⟨"regexp", fun _ source => .ok (some (q.extract source))⟩

end KeySource

/-- The searches that settings ask for. -/
def Config.sources (c : Config) : List KeySource :=
  [.ofMarked c.marked, .ofQuoted c.quoted]

end KeyHarvest
