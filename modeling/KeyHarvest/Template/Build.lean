/-
From markup to template nodes. The angle brackets inside code are masked,
the markup of the masked text is read, and its tree is checked: a stray
end tag comes first, then the first malformed place, then elements left
open whose end tag may not be left out. A tree that passes is turned into
nodes. Between the child elements, comments and the like of an element
lies text, taken from the template as it is written; blank text is
dropped.

The children of an element are built before its attributes, so a fault
inside an element is reported before one in its tag.
-/
import KeyHarvest.Expr.Interpolation
import KeyHarvest.Markup.Charref
import KeyHarvest.Markup.Mask
import KeyHarvest.Markup.Nesting
import KeyHarvest.Template.Attribute
import KeyHarvest.Template.Error
import KeyHarvest.Text.Lower

namespace KeyHarvest.Template

open Markup (Kind)

/-- A template: its text, and its path for messages. -/
structure Source where
  text : Text
  path : Text

namespace Source

-- ============================================================== texts

/-- The text of a markup node. -/
def textOf (s : Source) (n : Markup.Node) : Text := Text.slice s.text n.start n.stop

/-- A refusal at the place where a markup node begins. -/
def refuse (s : Source) (n : Markup.Node) (fault : Fault) : Error :=
  .malformed fault s.path (some (Place.ofOffset s.text n.start))

/-- White space that is collapsed in text. -/
def isCollapsible (c : CodePoint) : Bool :=
  c.inRanges [(0x9, 0xD), (0x20, 0x20), (0x1680, 0x1680), (0x180E, 0x180E), (0x2000, 0x200A),
    (0x2028, 0x2029), (0x202F, 0x202F), (0x205F, 0x205F), (0x3000, 0x3000), (0xFEFF, 0xFEFF)]

/-- A text with every run of two or more collapsible blanks replaced by
one space. -/
def collapse : Text → Text
  | [] => []
  | c :: cs =>
      let run := (cs.takeWhile isCollapsible).length
      if isCollapsible c ∧ run ≠ 0 then CodePoint.ofChar ' ' :: collapse (cs.drop run)
      else c :: collapse cs
termination_by t => t.length
decreasing_by all_goals (simp only [List.length_cons, List.length_drop]; omega)

/-- A refusal of a numeral, as one of the template. -/
def decode (t : Text) : Except Error Text :=
  (Charref.decode t).mapError fun e => .oversized e.digits

/-- The node of a stretch of text, unless it is blank. -/
def textNode? (s : Source) (raw : Text) : Except Error (Option Node) :=
  if Text.isBlank raw then .ok none
  else do
    let value ← decode raw
    match Expr.parseInterpolated value with
    | .ok (some e) => .ok (some (.boundText e))
    | .ok none => .ok (some (.text (collapse value)))
    | .error (.malformed fault _) =>
        .error (.malformed (.interpolation fault (Text.trim value)) s.path none)
    | .error (.oversized n) => .error (.oversized n)

-- ========================================================= attributes

/-- A refusal of a binding at its attribute. -/
def refuseBinding (s : Source) (n : Markup.Node) (name value : Text) : ExprError → Error
  | .malformed fault _ => s.refuse n (.binding fault name value)
  | .oversized digits => .oversized digits

/-- An attribute whose value is an expression. -/
def bound (s : Source) (n : Markup.Node) (name value : Text) : Except Error BoundAttribute := do
  let e ← (Expr.parseBinding value).mapError (s.refuseBinding n name value)
  return ⟨name, e⟩

/-- The groups of one attribute. -/
def classify (s : Source) (n : Markup.Node) (name value : Text) : Except Error Attributes :=
  match Role.ofName name with
  | .directive x => .ok { Attributes.empty with directives := [⟨x, value⟩] }
  | .twoWay x => do
      let b ← s.bound n x value
      return { Attributes.empty with inputs := [b], outputs := [⟨x ++ "Change", value⟩] }
  | .input x => do
      let b ← s.bound n x value
      return { Attributes.empty with inputs := [b] }
  | .output x => .ok { Attributes.empty with outputs := [⟨x, value⟩] }
  | .reference x => .ok { Attributes.empty with references := [⟨x, value⟩] }
  | .variable x => .ok { Attributes.empty with locals := [⟨x, value⟩] }
  | .other => do
      match ← (Expr.parseInterpolated value).mapError (s.refuseBinding n name value) with
      | some e => return { Attributes.empty with inputs := [⟨name, e⟩] }
      | none => return { Attributes.empty with plain := [⟨name, value⟩] }

/-- The name and the value of an attribute. -/
def attributeParts (s : Source) (n : Markup.Node) : Except Error (Text × Text) := do
  let part (kind : Kind) : Text := ((n.child? kind).map s.textOf).getD []
  let value ← decode (part .attributeValue)
  return (part .attributeName, value)

/-- The attributes of a tag in order. -/
def attributes (s : Source) : List Markup.Node → Except Error Attributes
  | [] => .ok .empty
  | n :: ns =>
      if n.kind = .attribute then do
        let (name, value) ← s.attributeParts n
        let first ← s.classify n name value
        let rest ← s.attributes ns
        return first.append rest
      else s.attributes ns

-- =========================================================== elements

/-- The markup that never gives nodes. -/
def isSkipped (kind : Kind) : Bool :=
  match kind with
  | .comment | .doctype | .script | .style => true
  | _ => false

/-- The name of a tag as it is written. -/
def tagName (s : Source) (tag : Markup.Node) : Text :=
  ((tag.child? .tagName).map s.textOf).getD []

/-- The element of a tag with its attributes and children, inside a
template of its own if it has a structural directive. -/
def assemble (name : Text) (a : Attributes) (children : List Node) (line : Nat) : Node :=
  let own : Node :=
    if name = Text.ofString "ng-template" then
      .template name { a with directives := [] } children line
    else .element name a.plain a.inputs a.outputs a.references children line
  if a.directives.isEmpty then own
  else .template name { Attributes.empty with directives := a.directives } [own] line

mutual

/-- The node of an element. -/
def element (s : Source) : Markup.Node → Except Error Node
  | ⟨_, start, stop, _, children⟩ => do
      let tag := children.headD (.leaf .startTag start start)
      let closer := children.find? (·.kind = .endTag)
      let inner ←
        if tag.kind = .selfClosingTag then .ok []
        else content s tag.stop ((closer.map (·.start)).getD stop) children
      let attributes ← s.attributes tag.children
      return assemble (s.tagName tag) attributes inner (Place.ofOffset s.text start).line

/-- The nodes of the children of a tag or document, and of the text from
`cursor` up to `stop` around them. -/
def content (s : Source) (cursor stop : Nat) : List Markup.Node → Except Error (List Node)
  | [] => do return (← s.textNode? (Text.slice s.text cursor stop)).toList
  | n :: ns =>
      if n.kind = .element then do
        let before ← s.textNode? (Text.slice s.text cursor n.start)
        let e ← element s n
        let rest ← content s n.stop stop ns
        return before.toList ++ e :: rest
      else if isSkipped n.kind then do
        let before ← s.textNode? (Text.slice s.text cursor n.start)
        let rest ← content s n.stop stop ns
        return before.toList ++ rest
      else content s cursor stop ns

end

-- ============================================================= checks

/-- The elements whose end tag may be left out. -/
def optionalEnds : List String :=
  ["li", "dt", "dd", "rb", "rt", "rtc", "rp", "optgroup", "option", "p", "thead", "tbody", "tfoot",
   "tr", "td", "th"]

/-- The elements that never have an end tag. -/
def voidElements : List String :=
  ["area", "base", "br", "col", "embed", "hr", "img", "input", "link", "meta", "param", "source",
   "track", "wbr"]

/-- The name in lower case of an element written without an end tag. -/
def unclosedName? (s : Source) (n : Markup.Node) : Option Text :=
  let tag := n.children.headD (.leaf .startTag n.start n.start)
  if tag.kind = .startTag && (n.child? .endTag).isNone then some (Text.lower (s.tagName tag))
  else none

/-- Whether an element was left open that must be closed. -/
def isUnclosed (s : Source) (n : Markup.Node) : Bool :=
  match s.unclosedName? n with
  | some name => !(Text.isOneOf optionalEnds name || Text.isOneOf voidElements name)
  | none => false

/-- The fault of a malformed place: the first line of what stands there. -/
def faultAt (s : Source) (n : Markup.Node) : Fault :=
  match n.kind with
  | .absent token => .missing token
  | _ =>
      let line := Text.firstLine (Text.trim (s.textOf n))
      .unexpected (if line.isEmpty then "ERROR" else line)

/-- The first reason to refuse a tree, if there is one. -/
def check (s : Source) (root : Markup.Node) : Except Error Unit :=
  match root.findAll .strayEndTag with
  | n :: _ => .error (s.refuse n (.strayEndTag (s.tagName n)))
  | [] =>
      if root.flawed then
        match Markup.Node.faults [root] with
        | n :: _ => .error (s.refuse n (s.faultAt n))
        | [] =>
            match (root.findAll .element).find? s.isUnclosed with
            | some n => .error (s.refuse n (.unclosed ((s.unclosedName? n).getD [])))
            | none => .ok ()
      else .ok ()

end Source

/-- The nodes of a template. -/
def parse (path text : Text) : Except Error (List Node) := do
  let s : Source := ⟨text, path⟩
  let root := Markup.parse (mask text)
  s.check root
  s.content 0 root.stop root.children

end KeyHarvest.Template
