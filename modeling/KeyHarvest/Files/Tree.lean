/-
A file system as a value: a file is its bytes, a directory its entries by
name. Reading a program's inputs is looking things up in one tree, and
the order in which a directory lists its entries carries no meaning.
-/
import KeyHarvest.Files.Path
import KeyHarvest.Text.Utf8

namespace KeyHarvest

/-- A file or a directory. -/
inductive Tree where
  | file (bytes : List UInt8)
  | directory (entries : List (Text × Tree))

namespace Tree

/-- Whether a tree is a directory. -/
def isDirectory : Tree → Bool
  | .directory _ => true
  | .file _ => false

/-- The bytes of a file. -/
def bytes? : Tree → Option (List UInt8)
  | .file bytes => some bytes
  | .directory _ => none

/-- The entry of a directory under a name. -/
def entry? (name : Text) : Tree → Option Tree
  | .directory entries => entries.lookup name
  | .file _ => none

/-- What is at a location. -/
def node? : Location → Tree → Option Tree
  | [], t => some t
  | name :: l, t => (t.entry? name).bind (node? l)

/-- Whether a location holds a directory. -/
def hasDirectory (top : Tree) (l : Location) : Bool := (top.node? l).any isDirectory

/-- The bytes of the file at a location. -/
def bytesAt? (top : Tree) (l : Location) : Option (List UInt8) := (top.node? l).bind bytes?

/-- The location that the parts of a path lead to from a location. Every
step leaves from a directory and arrives at something that exists. -/
def follow? (top : Tree) : Location → List Text → Option Location
  | l, [] => if (top.node? l).isSome then some l else none
  | l, part :: parts =>
      if top.hasDirectory l then
        follow? top (if part = Text.ofString ".." then l.dropLast else l ++ [part]) parts
      else none

/-- The location of what a path names, seen from a directory; none when
there is nothing. -/
def locate? (top : Tree) (dir : Location) (p : Path) : Option Location :=
  top.follow? (if p.anchor.isEmpty then dir else []) p.parts

/-- The entries of a directory; a file has none. -/
def entries : Tree → List (Text × Tree)
  | .directory es => es
  | .file _ => []

/-- Entries with one of them changed, or added at the end when there is
none of that name. -/
def alter (name : Text) (f : Option Tree → Tree) : List (Text × Tree) → List (Text × Tree)
  | [] => [(name, f none)]
  | e :: es => if e.1 = name then (name, f (some e.2)) :: es else e :: alter name f es

/-- The tree with something put at a location. Missing directories are
made on the way, and what was there before is replaced. -/
def put (content : Tree) : Location → Tree → Tree
  | [], _ => content
  | name :: l, t =>
      .directory (alter name (fun old => put content l (old.getD (.directory []))) t.entries)

end Tree

end KeyHarvest
