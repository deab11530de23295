/-
Settings from a file system. A file that is named must exist; the usual
file of the working directory is read only if it is there. How its text is
read is left to a reader, which gives a value or says why there is none.
-/
import KeyHarvest.Config.Basic
import KeyHarvest.Files.Tree
import KeyHarvest.Yaml.Document

namespace KeyHarvest.Config

/-- Why settings could not be loaded. -/
inductive LoadFault where
  | missing (path : Text)
  | malformed (path message : Text)
  | undecodable (fault : Utf8.Fault)
  | unforeseen (message : Text)
  | refused (fault : Fault)
  deriving DecidableEq, Repr

/-- The wording of a fault. -/
def LoadFault.message : LoadFault → Text
  | .missing path => "Config file not found: " ++ path
  | .malformed path message => "Failed to parse " ++ path ++ ": " ++ message
  | .undecodable fault => fault.message
  | .unforeseen message => message
  | .refused fault => fault.message

/-- Whether a fault is one that its message lets the user mend. A file
that is no text, one that the reader fails on without calling it malformed
and a key that is no text are not foreseen. -/
def LoadFault.isForeseen : LoadFault → Bool
  | .undecodable _ | .unforeseen _ => false
  | .refused (.unnamedKey _) => false
  | _ => true

/-- The settings in the bytes of a file, which is shown as `path`. -/
def ofBytes (read : Yaml.Reader) (path : Text) (bytes : List UInt8) : Except LoadFault Config :=
  match Text.ofBytesStrictly bytes with
  | .error fault => .error (.undecodable fault)
  | .ok t =>
      match read t with
      | .error (.malformed message) => .error (.malformed path message)
      | .error (.unforeseen message) => .error (.unforeseen message)
      | .ok v => (ofValue v).mapError .refused

/-- The settings for a working directory, from the named file or else from
the usual one. -/
def load (read : Yaml.Reader) (top : Tree) (dir : Location) : Option Path → Except LoadFault Config
  | some p =>
      match (top.locate? dir p).bind top.bytesAt? with
      | some bytes => ofBytes read p.toText bytes
      | none => .error (.missing p.toText)
  | none =>
      match top.bytesAt? (dir ++ [fileName]) with
      | some bytes => ofBytes read (Location.toText (dir ++ [fileName])) bytes
      | none => .ok defaults

end KeyHarvest.Config
