/-
Runs of letters that change case together. Every `stride`-th code point of
a run is a letter of one case, and the run moves as a whole onto the
letters of the other. Both mappings between cases are tables of runs.
-/
import KeyHarvest.Text.Basic

namespace KeyHarvest

/-- A run of letters and where the run of their other case begins. -/
structure CaseRun where
  first : Nat
  last : Nat
  stride : Nat
  target : Nat

namespace CaseRun

/-- Whether a code point is one of the letters of the run. -/
def covers (r : CaseRun) (c : CodePoint) : Bool :=
  c.within r.first r.last && (c.val - r.first) % r.stride == 0

/-- The other case of a code point by the first run that covers it; a code
point that no run covers has none. -/
def map (runs : List CaseRun) (c : CodePoint) : CodePoint :=
  match runs.find? (·.covers c) with
  | some r => .ofNat (r.target + (c.val - r.first))
  | none => c

end CaseRun

end KeyHarvest
