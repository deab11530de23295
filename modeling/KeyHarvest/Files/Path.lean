/-
Paths and locations. A path is what a user writes: relative or from the
top, with `..` steps. Empty parts and `.` parts mean nothing and are left
out, so two spellings of a path that differ only in them are shown alike.
A location is where something is: the names from the top of the file
system down.
-/
import KeyHarvest.Text.Lower

namespace KeyHarvest

-- ============================================================= paths

/-- A path as written. The anchor is empty in a relative path and holds
the leading slashes of any other. -/
structure Path where
  anchor : Text
  parts : List Text
  deriving DecidableEq, Repr

namespace Path

/-- The anchor of a written path. Two slashes are kept as they are; any
other number above none is one. -/
def anchorOf (t : Text) : Text :=
  match (t.takeWhile fun (c : CodePoint) => c = '/').length with
  | 0 => []
  | 2 => "//"
  | _ => "/"

/-- The path that a text spells. -/
def ofText (t : Text) : Path :=
  ⟨anchorOf t, (Text.splitOn '/' t).filter fun part => !part.isEmpty && part != Text.ofString "."⟩

/-- The spelling of a path; a dot stands for the empty one. -/
def toText (p : Path) : Text :=
  if p.anchor.isEmpty && p.parts.isEmpty then "." else p.anchor ++ Text.join "/" p.parts

end Path

-- ========================================================= locations

/-- The names from the top of the file system down to a place in it. -/
abbrev Location := List Text

namespace Location

/-- The spelling of a location from the top. -/
def toText (l : Location) : Text := "/" ++ Text.join "/" l

/-- The spelling of a location as seen from a directory: relative when it
is inside, from the top when it is not. -/
def shownFrom (dir l : Location) : Text :=
  if dir.isPrefixOf l then
    (if l.length = dir.length then "." else Text.join "/" (l.drop dir.length))
  else l.toText

/-- The location that a path names when nothing on the way is looked at:
a `..` step takes back the name before it. -/
def ofPath (dir : Location) (p : Path) : Location :=
  p.parts.foldl (fun l part => if part = Text.ofString ".." then l.dropLast else l ++ [part])
    (if p.anchor.isEmpty then dir else [])

end Location

-- ========================================================== suffixes

/-- The suffix of a file name from its last dot on, in lower case. A dot
at the very start or the very end makes no suffix. -/
def suffixOf (name : Text) : Text :=
  if name.contains (CodePoint.ofChar '.') && (Text.afterLast '.' name).length + 1 < name.length
      && !(Text.afterLast '.' name).isEmpty then
    Text.lower ("." ++ Text.afterLast '.' name)
  else []

end KeyHarvest
