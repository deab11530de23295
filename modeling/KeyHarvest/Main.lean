/-
The program. All decisions are made by `Command.answer` on a file system
that is a value, so this file only fills that value with what the request
can look at, and carries out the outcome: the inputs with all that is
below them, the ignore files beside them, and the settings.
-/
import KeyHarvest.Command.Outcome

namespace KeyHarvest

namespace Disk

/-- The string of a text; a text with half of a surrogate pair cannot be
written. -/
def stringOf (t : Text) : IO String :=
  match t.toString? with
  | some s => pure s
  | none => throw (IO.userError "surrogates not allowed")

/-- The tree at a path of the disk. Links to directories are not followed,
and directories that no search enters are left empty. -/
partial def load (path : String) : IO (Option Tree) := do
  let real ← (some <$> IO.FS.realPath path).catchExceptions fun _ => pure none
  match real with
  | none => return none
  | some p =>
      if ← p.isDir then
        let entries ← p.readDir
        let mut loaded : List (Text × Tree) := []
        for e in entries do
          let name := Text.ofString e.fileName
          let isLink := (← e.path.symlinkMetadata).type matches .symlink
          if ← e.path.isDir then
            if isLink || Selection.closedNames.contains name then
              loaded := (name, .directory []) :: loaded
            else if let some t ← load e.path.toString then
              loaded := (name, t) :: loaded
          else if ← e.path.pathExists then
            loaded := (name, .file (← IO.FS.readBinFile e.path).toList) :: loaded
        return some (.directory loaded)
      else if ← p.pathExists then
        return some (.file (← IO.FS.readBinFile p).toList)
      else return none

/-- The tree with what the disk has at a location, if it has something. -/
def fetch (top : Tree) (l : Location) : IO Tree := do
  match ← load (← stringOf l.toText) with
  | some t => return Tree.put t l top
  | none => return top

/-- The tree with a directory at a location, empty unless it is there
already. -/
def ensure (top : Tree) (l : Location) : IO Tree := do
  if (top.node? l).isSome then return top
  let real ← (some <$> IO.FS.realPath (← stringOf l.toText)).catchExceptions fun _ => pure none
  match real with
  | some p => return if ← p.isDir then Tree.put (.directory []) l top else top
  | none => return top

/-- The locations on the way along a path, from a directory on. -/
def waypoints (dir : Location) (p : Path) : List Location :=
  (List.range (p.parts.length + 1)).map fun n =>
    Location.ofPath dir { p with parts := p.parts.take n }

/-- The tree with what a path leads to, with the directories on the way,
and with the ignore file beside it. -/
def fetchPath (dir : Location) (top : Tree) (p : Path) : IO Tree := do
  let l := Location.ofPath dir p
  let top ← (waypoints dir p).dropLast.foldlM ensure top
  fetch (← fetch top l) (l.dropLast ++ [Text.ofString ".gitignore"])

/-- The working directory. -/
def currentDir : IO Location := do
  return (Path.ofText (Text.ofString (← IO.currentDir).toString)).parts

/-- What a request can look at. -/
def view (dir : Location) : Command.Request → IO Tree
  | .extract o => do
      let top ← ensure (.directory []) dir
      let top ← (Command.inputsOf dir o).foldlM (fetchPath dir) top
      match o.config with
      | some p => fetchPath dir top p
      | none => fetch top (dir ++ [Config.fileName])
  | _ => pure (.directory [])

/-- Writes a file, with the directories it needs. -/
def write (l : Location) (t : Text) : IO Unit := do
  IO.FS.createDirAll (← stringOf (Location.toText l.dropLast))
  IO.FS.writeFile (← stringOf l.toText) (← stringOf t)

/-- Carries out an outcome. -/
def perform (o : Command.Outcome) : IO UInt32 := do
  (← IO.getStderr).putStr (← stringOf o.err)
  if let some (l, t) := o.written then write l t
  (← IO.getStdout).putStr (← stringOf o.out)
  return o.exit.toUInt32

end Disk

end KeyHarvest

open KeyHarvest in
/-- The command line program. -/
def main (args : List String) : IO UInt32 := do
  let request := Command.read (args.map Text.ofString)
  let dir ← Disk.currentDir
  match Command.answer Yaml.read (← Disk.view dir request) dir request with
  | .ok o => Disk.perform o
  | .error crash => throw (IO.userError (← Disk.stringOf crash.message))
