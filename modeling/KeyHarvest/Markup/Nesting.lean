/-
From pieces to a tree. The open elements form a stack, innermost first,
and every tag is read against it. Before a tag takes its place, the
innermost element ends where it must: a void element before any start tag,
an element that cannot contain the tag, and anything inside the element
that an end tag closes further out. The same happens at the end of the
text to void elements and to the outermost elements of a document.

What is still open at the end of the text was left open. One element may
be, if it is the only one; it then ends with the last thing inside it and
is marked as flawed, without a malformed place to point to. A short tag
with nothing before it and nothing inside is no element left open: the tag
itself is malformed. An end tag that closes nothing is kept as a stray one
inside an element, and is malformed outside of all.
-/
import KeyHarvest.Markup.Memory
import KeyHarvest.Markup.Piece
import KeyHarvest.Text.Lines
import KeyHarvest.Text.Utf8

namespace KeyHarvest.Markup

-- ============================================================== stack

/-- An open element; its children so far are kept last first. -/
structure Frame where
  name : OpenName
  tag : Node
  children : List Node

/-- The open elements, innermost first, and the finished nodes outside of
them, last first. -/
structure Nest where
  frames : List Frame
  finished : List Node

namespace Nest

/-- A finished node takes its place in the innermost open element. -/
def add (n : Node) (s : Nest) : Nest :=
  match s.frames with
  | [] => { s with finished := n :: s.finished }
  | f :: fs => { s with frames := { f with children := n :: f.children } :: fs }

/-- Adding a node opens and closes nothing. -/
@[simp] theorem length_frames_add (n : Node) (s : Nest) :
    (s.add n).frames.length = s.frames.length := by
  unfold add
  split <;> simp_all

/-- The innermost element ends at an offset, after some last nodes. -/
def close (stop : Nat) (last : List Node) (s : Nest) : Nest :=
  match s.frames with
  | [] => s
  | f :: fs =>
      ({ s with frames := fs } : Nest).add
        (.branch .element f.tag.start stop (f.tag :: f.children.reverse ++ last))

/-- What decides whether an innermost element ends: its name, and the
names of all open elements. -/
abbrev Ends := OpenName → List OpenName → Bool

/-- Elements end at an offset for as long as `ends` says so. -/
def settle (ends : Ends) (stop : Nat) (s : Nest) : Nest :=
  match _h : s.frames with
  | [] => s
  | f :: _ =>
      if ends f.name (s.frames.map Frame.name) then settle ends stop (s.close stop []) else s
termination_by s.frames.length
decreasing_by simp [close, _h]

-- ============================================================== rules

/-- A start tag ends void elements and those that cannot contain it. -/
def beforeOpening (name : TagName) (tight : Bool) : Ends := fun innermost _ =>
  innermost.any fun n => n.isVoid || (tight && !n.canContain name)

/-- An end tag ends what is open inside the element that it closes. -/
def beforeClosing (name : TagName) (tight : Bool) : Ends := fun innermost names =>
  tight && innermost ≠ some name && names.any (·.any (·.sameClass name))

/-- The end of the text ends the elements that go no further. -/
def beforeEnd : Ends := fun innermost _ => innermost.any TagName.endsWithText

/-- All open elements end at an offset. -/
def closeAll (stop : Nat) (s : Nest) : Nest := s.settle (fun _ _ => true) stop

/-- What is remembered of a name inside the open elements. -/
def remember (s : Nest) (name : TagName) : OpenName :=
  OpenName.remember (s.frames.map Frame.name) name

/-- The end that a tag lacks when the text ends in it: that of a start tag
if its element ends with the text, and of a self-closing one otherwise. -/
def missedEnd (name : OpenName) : Text :=
  if name.any TagName.endsWithText then ['>'] else ['/', '>']

/-- One piece takes its place. -/
def step (s : Nest) : Piece → Nest
  | .plain node => s.add node
  | .opening name tight tag =>
      let s := s.settle (beforeOpening name tight) tag.start
      { s with frames := ⟨s.remember name, tag, []⟩ :: s.frames }
  | .complete name tight element =>
      (s.settle (beforeOpening name tight) element.start).add element
  | .raw name tight element =>
      let s := s.settle (beforeOpening name tight) element.start
      s.add (if (s.remember name).isSome then element
        else .broken .fault element.start element.stop)
  | .closing name tight start stop label =>
      let s := s.settle (beforeClosing name tight) start
      match s.frames with
      | [] => s.add (.broken .fault start stop)
      | f :: _ =>
          if f.name = some name then s.close stop [.branch .endTag start stop [label]]
          else s.add (.branch .strayEndTag start stop [label])
  | .unfinished name tight place tag =>
      let s := s.settle (beforeOpening name tight) tag.start
      let missed := Node.broken (.absent (missedEnd (s.remember name))) place place
      (s.closeAll tag.start).add (.branch tag.kind tag.start tag.stop (tag.children ++ [missed]))
  | .final node => (s.closeAll node.start).add node

/-- The end of what stands last in an open element. -/
def lastStop (f : Frame) : Nat :=
  match f.children with
  | [] => f.tag.stop
  | n :: _ => n.stop

/-- What it costs to pass over a text: a point for each byte, and thirty
more for each line end. -/
def skipCost (t : Text) : Nat :=
  (t.map fun c => Utf8.size c + if c = '\n' then 30 else 0).foldr Nat.add 0

/-- The highest cost at which a tag is passed over rather than left open. -/
def highestSkipCost : Nat := 10

/-- Whether the one open element of a text is a short tag with at most
comments before and after it. -/
def isBare (t : Text) (s : Nest) (f : Frame) : Bool :=
  (f.children ++ s.finished).all (·.kind = .comment)
    && skipCost (Text.slice t f.tag.start f.tag.stop) ≤ highestSkipCost

/-- The nodes of a text at its end. -/
def finish (t : Text) (s : Nest) : List Node :=
  let s := s.settle beforeEnd t.length
  match s.frames with
  | [] => s.finished.reverse
  | [f] =>
      if s.isBare t f then
        (f.children ++ .broken .fault f.tag.start f.tag.stop :: s.finished).reverse
      else
        let element : Node :=
          ⟨.element, f.tag.start, lastStop f, true, f.tag :: f.children.reverse⟩
        (element :: s.finished).reverse
  | _ => ((s.closeAll t.length).add (.broken .fault t.length t.length)).finished.reverse

end Nest

/-- Where the markup of a text begins: behind a byte order mark. -/
def markupStart (t : Text) : Nat := if Text.starts (.ofNat 0xFEFF) t then 1 else 0

/-- The tree of a text. -/
def parse (t : Text) : Node :=
  let start := markupStart t
  .branch .document 0 t.length
    (((pieces start (t.drop start)).foldl Nest.step ⟨[], []⟩).finish t)

end KeyHarvest.Markup
