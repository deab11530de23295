/-
Exclusion rules in the manner of version control. A rule is a pattern of
path parts; where several rules cover a path the last one decides, and a
rule that begins with `!` takes paths back in. A rule covers a path with
all that is below it.

A rule with a slash at its start or inside is anchored at the root, any
other covers names at every depth. A slash at the end asks for a
directory: a path that goes on behind the name, if only by a slash. Two
asterisks as a part of their own stand for any number of parts.
-/
import KeyHarvest.Files.Glob
import KeyHarvest.Text.Blank
import KeyHarvest.Text.Lines

namespace KeyHarvest

namespace Ignore

-- ============================================================= rules

/-- One part of a rule: any number of parts, or one name. -/
inductive Part where
  | tree
  | name (pattern : List Glob.Item)
  deriving DecidableEq, Repr

/-- A rule: its parts from the root down, and whether it takes paths back
in. -/
structure Rule where
  negated : Bool
  parts : List Part
  deriving DecidableEq, Repr

/-- Whether parts cover the names of a path. At the end of the parts all
that is below is covered; a tree at the end asks for something below. -/
def coversNames : List Part → List Text → Bool
  | [], _ => true
  | [.tree], names => !names.isEmpty
  | .tree :: part :: parts, names =>
      (List.range (names.length + 1)).any fun n => coversNames (part :: parts) (names.drop n)
  | .name _ :: _, [] => false
  | .name pattern :: parts, name :: names => Glob.covers pattern name && coversNames parts names

/-- A path without a slash or a dot and a slash in front. -/
def relative (path : Text) : Text :=
  match Text.after? "/" path, Text.after? "./" path with
  | some t, _ => t
  | none, some t => t
  | none, none => path

/-- Whether a rule covers a path; a directory is spelled with a slash at
its end. -/
def Rule.covers (r : Rule) (path : Text) : Bool :=
  coversNames r.parts (Text.splitOn '/' (relative path))

-- =========================================================== reading

/-- Two asterisks. -/
def twoStars : Text := "**"

/-- The line without blanks at its end, unless the last of them is a space
behind a backslash. -/
def withoutTail (line : Text) : Text :=
  if Text.ofString "\\ " <:+ line then line else Text.trimRight line

/-- The parts of a line as anchored at the root. A single part, with or
without a slash behind it, may stand at any depth. -/
def anchored : List Text → List Text
  | [] :: parts => parts
  | [part] => if part = twoStars then [part] else [twoStars, part]
  | [part, []] => if part = twoStars then [part, []] else [twoStars, part, []]
  | parts => parts

/-- The parts with the slash at the end spelled as a tree. -/
def closed : List Text → List Text
  | [] => []
  | [[]] => [twoStars]
  | part :: parts => part :: closed parts

/-- The parts with neighbouring trees made one. -/
def merged : List Text → List Text
  | [] => []
  | part :: parts =>
      match merged parts with
      | next :: rest =>
          if part = twoStars ∧ next = twoStars then next :: rest else part :: next :: rest
      | [] => [part]

/-- A pattern of one code point or more. -/
def someName : List Glob.Item := [.any, .run]

/-- The part that a text spells. -/
def Part.ofText? (t : Text) : Option Part :=
  if t = twoStars then some .tree
  else if t = Text.ofString "*" then some (.name someName)
  else (Glob.ofText? t).map .name

/-- The parts of a rule, for its text without the sign. Nothing but a tree
covers everything, and with a slash at its end every directory and what is
in it. -/
def partsOf? (body : Text) : Option (List Part) :=
  match merged (closed (anchored (Text.splitOn '/' body))) with
  | [] => none
  | [part] =>
      if part = twoStars ∧ Text.ofString "*/" <:+ body then
        some [.tree, .name someName, .tree]
      else (Part.ofText? part).map ([·])
  | parts => parts.mapM Part.ofText?

/-- Whether a line is none that a rule is read from: it is blank, a
comment, or a lone slash. -/
def isIdle (line : Text) : Bool :=
  (withoutTail line).isEmpty || Text.starts '#' line || withoutTail line = Text.ofString "/"

/-- The rule that a line spells; an idle one spells none, and neither does
a malformed one. -/
def Rule.ofLine? (line : Text) : Option Rule :=
  if isIdle line then none
  else if Text.starts '!' line then
    (partsOf? ((withoutTail line).drop 1)).map fun parts => ⟨true, parts⟩
  else (partsOf? (withoutTail line)).map fun parts => ⟨false, parts⟩

-- ==================================================== lists of rules

/-- The lines that take part: those of an ignore file, trimmed and without
blanks and comments, then the extra patterns that are not blank. -/
def lines (ignoreFile : Option Text) (extra : List Text) : List Text :=
  (((ignoreFile.getD []).lines.map Text.trim).filter fun l => !l.isEmpty && !Text.starts '#' l)
    ++ extra.filter fun l => !(Text.trim l).isEmpty

/-- Whether a line is malformed: a rule is read from it and there is none,
as with a lone `!` or a backslash at the end. -/
def isMalformed (line : Text) : Bool := !isIdle line && (Rule.ofLine? line).isNone

/-- The first malformed line, if there is one. -/
def malformed? (ls : List Text) : Option Text := ls.find? isMalformed

/-- Whether lines exclude a path: the last rule that covers it decides. -/
def excludes (ls : List Text) (path : Text) : Bool :=
  match ((ls.filterMap Rule.ofLine?).filter fun r => r.covers path).getLast? with
  | some r => !r.negated
  | none => false

end Ignore

end KeyHarvest
