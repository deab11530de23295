/-
What a command line asks for. There is one command, `extract`; the flags
of the program stand in front of it and its own behind it. The operands of
the command are paths, and they must stand together: operands behind a
later flag are not recognised. Arguments are read from left to right, and
the first that asks for help or the version, or is at fault, decides.
-/
import KeyHarvest.Command.Flag
import KeyHarvest.Files.Path

namespace KeyHarvest.Command

/-- The settings of an extraction that come from the command line. -/
structure Options where
  paths : List Path
  config : Option Path
  output : Option Path
  sort : Bool
  verbose : Bool
  deriving DecidableEq, Repr

/-- The parts of the program that have flags of their own. -/
inductive Level where
  | program
  | extract
  deriving DecidableEq, Repr

/-- The name of a level in messages. -/
def Level.name : Level → Text
  | .program => "tkx"
  | .extract => "tkx extract"

/-- What a command line asks for, or why it is refused. -/
inductive Request where
  | help (level : Level)
  | version
  | extract (options : Options)
  | refused (level : Level) (fault : Fault)
  deriving DecidableEq, Repr

-- ====================================================== the command

/-- The flags of the command. -/
inductive ExtractFlag where
  | help
  | config
  | sort
  | output
  | verbose
  deriving DecidableEq, Repr

/-- The names of the flags of the command. -/
def extractFlags : List (Flag ExtractFlag) :=
  [⟨["-h", "--help"], false, .help⟩, ⟨["--config"], true, .config⟩, ⟨["--sort"], false, .sort⟩,
   ⟨["--output", "-o"], true, .output⟩, ⟨["--verbose"], false, .verbose⟩]

/-- Where reading stands with the paths: before them, among them, or
behind them. -/
inductive Phase where
  | before
  | among
  | behind
  deriving DecidableEq, Repr

/-- What the arguments of the command said so far. -/
structure Reading where
  options : Options
  wantsHelp : Bool
  phase : Phase
  strange : List Text
  deriving DecidableEq, Repr

namespace Reading

/-- Nothing said yet. -/
def start : Reading := ⟨⟨[], none, none, false, false⟩, false, .before, []⟩

/-- The reading after a flag, with its value if it takes one. The first
request for help settles everything. -/
def apply (r : Reading) (flag : ExtractFlag × Option Text) : Reading :=
  match flag with
  | (.help, _) => { r with wantsHelp := true }
  | (.config, value) => { r with options.config := value.map Path.ofText }
  | (.sort, _) => { r with options.sort := true }
  | (.output, value) => { r with options.output := value.map Path.ofText }
  | (.verbose, _) => { r with options.verbose := true }

/-- The reading after a word that is no operand: the paths are complete if
they had begun. -/
def leavePaths (r : Reading) : Reading :=
  if r.phase = .among then { r with phase := .behind } else r

/-- The reading after an operand. -/
def operand (r : Reading) (arg : Text) : Reading :=
  if r.phase = .behind then { r with strange := r.strange ++ [arg] }
  else { r with phase := .among, options.paths := r.options.paths ++ [Path.ofText arg] }

/-- The reading after two dashes, which are no path themselves. -/
def separator (r : Reading) (arg : Text) : Reading :=
  if r.phase = .behind then { r with strange := r.strange ++ [arg] }
  else { r with phase := .among }

/-- The reading after an argument that looks like a flag and is none. -/
def stranger (r : Reading) (arg : Text) : Reading :=
  { r.leavePaths with strange := r.strange ++ [arg] }

end Reading

/-- Reads the arguments of the command. A request for help ends it. -/
def readExtract (r : Reading) : List (Text × Word ExtractFlag) → Except Fault Reading
  | [] => .ok r
  | (arg, .operand) :: ws => readExtract (r.operand arg) ws
  | (arg, .separator) :: ws => readExtract (r.separator arg) ws
  | (arg, .unknownFlag) :: ws => readExtract (r.stranger arg) ws
  | (_, .flag f joined value) :: ws => do
      let taken ← take extractFlags f joined value
      let r := { r with strange := r.strange ++ taken.strange }
      match taken.wanting, ws with
      | none, ws =>
          let r := taken.settled.foldl Reading.apply r.leavePaths
          if r.wantsHelp then return r else readExtract r ws
      | some g, (v, .operand) :: ws =>
          let r := (taken.settled ++ [(g.action, some v)]).foldl Reading.apply r.leavePaths
          if r.wantsHelp then return r else readExtract r ws
      | some g, _ => .error (.missingValue g.label)

/-- The names of the commands. -/
def commands : List Text := ["extract"]

/-- The request of a command with its arguments, when some arguments in
front of it were not recognised. -/
def requestOf (strange : List Text) (command : Text) (args : List Text) : Request :=
  if commands.contains command then
    match classifyAll extractFlags args >>= readExtract .start with
    | .error fault => .refused .extract fault
    | .ok r =>
        if r.wantsHelp then .help .extract
        else if (strange ++ r.strange).isEmpty then .extract r.options
        else .refused .program (.unrecognized (strange ++ r.strange))
  else .refused .program (.unknownCommand command commands)

-- ======================================================= the program

/-- The flags of the program. -/
inductive ProgramFlag where
  | help
  | version
  deriving DecidableEq, Repr

/-- The names of the flags of the program. -/
def programFlags : List (Flag ProgramFlag) :=
  [⟨["-h", "--help"], false, .help⟩, ⟨["-v", "--version"], false, .version⟩]

/-- Reads the arguments of the program up to its command. -/
def readProgram (strange : List Text) : List (Text × Word ProgramFlag) → Request
  | [] => .refused .program .missingCommand
  | (arg, .unknownFlag) :: ws => readProgram (strange ++ [arg]) ws
  | (_, .flag f joined value) :: _ =>
      match take programFlags f joined value with
      | .error fault => .refused .program fault
      | .ok taken =>
          match taken.settled with
          | (.version, _) :: _ => .version
          | _ => .help .program
  | (_, .separator) :: [] => .refused .program .missingCommand
  | (arg, _) :: ws => requestOf strange arg (ws.map Prod.fst)

/-- What the arguments of the program ask for. -/
def read (args : List Text) : Request :=
  match classifyAll programFlags args with
  | .error fault => .refused .program fault
  | .ok ws => readProgram [] ws

end KeyHarvest.Command
