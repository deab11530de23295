/-
Token trees: the tokens of a source with every bracket pair made into one
group. Brackets are matched by their order alone, since the sources are
valid; what is left open at the end is closed there.
-/
import KeyHarvest.Script.Token

namespace KeyHarvest.Script

/-- A token, or what a pair of brackets encloses. -/
inductive Tree where
  | token (t : Token)
  | group (b : Bracket) (start stop : Nat) (items : List Tree)

namespace Tree

/-- Where a tree begins. -/
def start : Tree → Nat
  | .token t => t.start
  | .group _ start _ _ => start

/-- Where a tree ends. -/
def stop : Tree → Nat
  | .token t => t.stop
  | .group _ _ stop _ => stop

/-- Whether a tree is a mark. -/
def isMark (c : CodePoint) : Tree → Bool
  | .token t => t.kind = .mark c
  | .group .. => false

/-- Whether a tree is a word. -/
def isWord : Tree → Bool
  | .token t => t.kind = .word
  | .group .. => false

/-- An open group; its items so far are kept last first. -/
structure Frame where
  bracket : Bracket
  start : Nat
  items : List Tree

/-- A tree takes its place in the innermost open group, or outside of all
among the finished trees. -/
def place (t : Tree) : List Frame × List Tree → List Frame × List Tree
  | ([], done) => ([], t :: done)
  | (f :: fs, done) => ({ f with items := t :: f.items } :: fs, done)

/-- One more token. -/
def push (s : List Frame × List Tree) (t : Token) : List Frame × List Tree :=
  match t.kind, s with
  | .opening b, (fs, done) => (⟨b, t.start, []⟩ :: fs, done)
  | .closing _, (f :: fs, done) =>
      place (.group f.bracket f.start t.stop f.items.reverse) (fs, done)
  | .closing _, ([], done) => ([], done)
  | _, s => place (.token t) s

/-- The trees when the text ends. -/
def closeAll (stop : Nat) : List Frame → List Tree → List Tree
  | [], done => done.reverse
  | [f], done => closeAll stop [] (.group f.bracket f.start stop f.items.reverse :: done)
  | f :: g :: fs, done =>
      closeAll stop
        ({ g with items := .group f.bracket f.start stop f.items.reverse :: g.items } :: fs) done
termination_by frames => frames.length

/-- The trees of a source, behind the line that may name its program. -/
def ofText (d : Dialect) (t : Text) : List Tree :=
  let start := commandLineLength t
  let (frames, done) := (tokens d start ⟨[], .statement⟩ (t.drop start)).foldl push ([], [])
  closeAll t.length frames done

/-- Items cut at every comma. -/
def splitCommas : List Tree → List (List Tree)
  | [] => [[]]
  | t :: ts =>
      match splitCommas ts with
      | [] => [[t]]
      | part :: parts => if t.isMark ',' then [] :: part :: parts else (t :: part) :: parts

end Tree

end KeyHarvest.Script
