/-
Finding the files to search. A directory gives its own files first, then
what its sub-directories give; both are taken in the order of their names,
so the order of the listing does not matter. Directories of version
control and of dependencies are never entered, nor is a directory that is
excluded, whatever is in it. A file that is named itself is taken for its
suffix alone.
-/
import KeyHarvest.Files.Ignore
import KeyHarvest.Files.Tree

namespace KeyHarvest

/-- Which files are wanted: their suffixes, and a test that excludes paths
relative to the root of the search. A directory is tested with a slash
behind its path. -/
structure Selection where
  extensions : List Text
  excludes : Text → Bool

/-- A file that was found: its path from the root of the search, and its
bytes. -/
structure Found where
  path : List Text
  bytes : List UInt8
  deriving DecidableEq, Repr

namespace Selection

/-- Whether the suffix of a file is wanted. -/
def hasSuffix (s : Selection) (name : Text) : Bool := s.extensions.contains (suffixOf name)

/-- Whether a file of a directory is wanted. -/
def admits (s : Selection) (dir : List Text) (name : Text) : Bool :=
  s.hasSuffix name && !s.excludes (Text.join "/" (dir ++ [name]))

/-- The names of directories that are never entered. -/
def closedNames : List Text := [".git", "node_modules"]

/-- Whether a sub-directory is entered. -/
def enters (s : Selection) (dir : List Text) (name : Text) : Bool :=
  !closedNames.contains name && !s.excludes (Text.join "/" (dir ++ [name]) ++ "/")

/-- The order of named things by their names. -/
def byName {α : Type} (a b : Text × α) : Bool := Text.le a.1 b.1

/-- The file of an entry, if it is one and wanted. -/
def ownFile? (s : Selection) (dir : List Text) : Text × Tree → Option Found
  | (name, .file bytes) => if s.admits dir name then some ⟨dir ++ [name], bytes⟩ else none
  | (_, .directory _) => none

mutual

/-- The files below a directory at a path, in order. -/
def walk (s : Selection) (dir : List Text) : Tree → List Found
  | .file _ => []
  | .directory entries =>
      (entries.mergeSort byName).filterMap (s.ownFile? dir)
        ++ ((walkEntries s dir entries).mergeSort byName).flatMap Prod.snd

/-- The files below each of the sub-directories that are entered. -/
def walkEntries (s : Selection) (dir : List Text) : List (Text × Tree) → List (Text × List Found)
  | [] => []
  | (name, t) :: entries =>
      if t.isDirectory && s.enters dir name then
        (name, walk s (dir ++ [name]) t) :: walkEntries s dir entries
      else walkEntries s dir entries

end

/-- The files to search at a location, each with the location where it
is. -/
def find (s : Selection) (top : Tree) (l : Location) : List (Location × List UInt8) :=
  match top.node? l with
  | none => []
  | some (.file bytes) => if s.hasSuffix (l.getLast?.getD []) then [(l, bytes)] else []
  | some t => (s.walk [] t).map fun f => (l ++ f.path, f.bytes)

end Selection

/-- The lines of the ignore file of a directory with extra patterns. -/
def Ignore.linesAt (top : Tree) (dir : Location) (extra : List Text) : List Text :=
  Ignore.lines ((top.bytesAt? (dir ++ [Text.ofString ".gitignore"])).map Text.ofBytes) extra

end KeyHarvest
