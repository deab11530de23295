/-
What the program does: its exit code, what it writes to the two streams,
and the file it leaves behind, as a function of the file system, the
working directory and the arguments.

A report is written once, to the standard output or to a file. The exit
code is 0 for a report without failures, 1 for one with failures, and 2
when there is no report, because the settings, an input or the arguments
are at fault. What is not foreseen has no outcome (`Crash`).
-/
import KeyHarvest.Command.Request
import KeyHarvest.Config.Load
import KeyHarvest.Extraction.Report
import KeyHarvest.Json.Value

namespace KeyHarvest

-- ======================================================= the report

/-- A failure as a JSON object. -/
def Failure.toJson (f : Failure) : Json.Value :=
  .object [("path", .text f.path), ("parser", .text f.source), ("error", .text f.error)]

/-- A report as a JSON object. -/
def Report.toJson (r : Report) (sorted : Bool) : Json.Value :=
  .object [("keys", .list ((r.keyList sorted).map .text)), ("files", .number r.files),
    ("failed", .list (r.failed.map Failure.toJson))]

/-- Why a run stopped, as the user is told. -/
def Stop.message : Stop → Text
  | .missing path _ => "Input path not found: " ++ path
  | .malformedRule line => "Invalid git pattern: " ++ Text.shown line
  | .oversized e => e.message

namespace Command

-- ========================================================== outcomes

/-- What a run of the program leaves behind. -/
structure Outcome where
  exit : Nat
  out : Text
  err : Text
  written : Option (Location × Text)
  deriving DecidableEq, Repr

/-- What is not foreseen and stops the program with no outcome. -/
inductive Crash where
  | settings (fault : Config.LoadFault)
  | run (stop : Stop)
  deriving DecidableEq, Repr

/-- The wording of what is not foreseen. -/
def Crash.message : Crash → Text
  | .settings fault => fault.message
  | .run stop => stop.message

/-- The warning about a failure. -/
def warning (f : Failure) : Text :=
  "[WARNING] " ++ f.source ++ " parser failed on " ++ f.path ++ ": " ++ f.error ++ "\n"

/-- The warnings about failures. -/
def warnings (fs : List Failure) : Text := fs.flatMap warning

/-- The summary of a report. -/
def summary (r : Report) : Text :=
  "[INFO] Extracted " ++ Text.ofNat r.keys.size ++ " key(s) from " ++ Text.ofNat r.files
    ++ " file(s), " ++ Text.ofNat r.failed.length ++ " failure(s)\n"

/-- The outcome when the user is told what is at fault, after a log. -/
def told (log message : Text) : Outcome :=
  ⟨2, [], log ++ Text.trimRight message ++ "\n", none⟩

/-- The outcome of a report. -/
def reported (dir : Location) (o : Options) (r : Report) : Outcome where
  exit := if r.failed.isEmpty then 0 else 1
  out := if o.output.isSome then [] else Json.render (r.toJson o.sort)
  err := warnings r.failed ++ (if o.verbose then summary r else [])
  written := o.output.map fun p => (Location.ofPath dir p, Json.render (r.toJson o.sort) ++ "\n")

/-- The inputs of an extraction; without any the working directory is
one. -/
def inputsOf (dir : Location) (o : Options) : List Path :=
  if o.paths.isEmpty then [⟨"/", dir⟩] else o.paths

/-- The outcome of an extraction, with a reader for the settings. -/
def extract (reader : Yaml.Reader) (top : Tree) (dir : Location) (o : Options) :
    Except Crash Outcome :=
  match Config.load reader top dir o.config with
  | .error fault =>
      if fault.isForeseen then .ok (told [] fault.message) else .error (.settings fault)
  | .ok c =>
      match Report.run c top dir (inputsOf dir o) with
      | .ok r => .ok (reported dir o r)
      | .error (.missing path failed) =>
          .ok (told (warnings failed) (Stop.missing path failed).message)
      | .error stop => .error (.run stop)

-- =========================================================== answers

/-- The version of the program. -/
def version : Text := "0.1.0"

/-- How a level is called. -/
def usage : Level → Text
  | .program => "usage: tkx [-h] [-v] \x7bextract\x7d ...\n"
  | .extract =>
      "usage: tkx extract [-h] [--config CONFIG] [--sort] [--output OUTPUT]\n"
        ++ "                   [--verbose]\n"
        ++ "                   [paths ...]\n"

/-- What a level can do. -/
def manual : Level → Text
  | .program =>
      "\nTranslation key extractor\n\npositional arguments:\n  \x7bextract\x7d\n"
        ++ "    extract      JSON report: keys found in templates and sources\n"
        ++ "\noptions:\n"
        ++ "  -h, --help     show this help message and exit\n"
        ++ "  -v, --version  show program's version number and exit\n"
  | .extract =>
      "\npositional arguments:\n"
        ++ "  paths                 files or directories to scan (default: current\n"
        ++ "                        directory)\n"
        ++ "\noptions:\n"
        ++ "  -h, --help            show this help message and exit\n"
        ++ "  --config CONFIG       configuration file (default: ./tkx.yaml when present)\n"
        ++ "  --sort                sort keys alphabetically instead of discovery order\n"
        ++ "  --output OUTPUT, -o OUTPUT\n"
        ++ "                        write the report to a file instead of stdout\n"
        ++ "  --verbose             log progress to stderr\n"

/-- What the program does for a request, with a reader for the settings. -/
def answer (reader : Yaml.Reader) (top : Tree) (dir : Location) : Request → Except Crash Outcome
  | .help level => .ok ⟨0, usage level ++ manual level, [], none⟩
  | .version => .ok ⟨0, Level.program.name ++ " " ++ version ++ "\n", [], none⟩
  | .extract o => extract reader top dir o
  | .refused level fault =>
      .ok ⟨2, [], usage level ++ level.name ++ ": error: " ++ fault.message ++ "\n", none⟩

end Command

end KeyHarvest
