/-
The pieces of markup: comments, document types, text, entities and tags,
in the order in which they stand. A piece is recognised from its first
code points alone; which elements the tags open and close is decided
later. A script or style element is one piece, because nothing inside it
is markup.

Text that fits no piece is malformed. Inside text it reaches up to the
next tag or entity, inside a tag up to the end of the tag, and reading
goes on behind it. Where a tag has no end, nothing after it can be read.

Comments may stand between any two tokens, and blanks of all kinds before
a comment, a tag name and the end of a self-closing tag. Elsewhere only
the blanks of ASCII separate; another one is text or part of a name.

All functions take a text and its offset in the template and return how
many code points they read.
-/
import KeyHarvest.Markup.Node
import KeyHarvest.Markup.Tag

namespace KeyHarvest.Markup

/-- A piece of markup. `tight` says that the name of a tag follows its
bracket at once. -/
inductive Piece where
  /-- Something that opens and closes nothing. -/
  | plain (node : Node)
  /-- A start tag. -/
  | opening (name : TagName) (tight : Bool) (tag : Node)
  /-- An element that is complete by itself. -/
  | complete (name : TagName) (tight : Bool) (element : Node)
  /-- An element whose content is raw text. -/
  | raw (name : TagName) (tight : Bool) (element : Node)
  /-- An end tag: the span of the tag, and the node of its name. -/
  | closing (name : TagName) (tight : Bool) (start stop : Nat) (label : Node)
  /-- A start tag that the text ends in, and where its end is missed. -/
  | unfinished (name : TagName) (tight : Bool) (place : Nat) (tag : Node)
  /-- A malformed piece after which nothing is read. -/
  | final (node : Node)

-- ==================================================== blanks, comments

/-- The length of a comment after its opening, when the last `dashes` code
points were dashes. It ends at the first `>` after two or more. -/
def commentTail (dashes : Nat) : Text → Option Nat
  | [] => none
  | c :: cs =>
      if c.val = 0 then none
      else if c = '-' then (commentTail (dashes + 1) cs).map (· + 1)
      else if c = '>' ∧ 2 ≤ dashes then some 1
      else (commentTail 0 cs).map (· + 1)

/-- The length of the comment at the start of a text. -/
def commentLength? (t : Text) : Option Nat := do
  let rest ← Text.after? ['<', '!', '-', '-'] t
  let n ← commentTail 0 rest
  return n + 4

/-- The length of the leading blanks of the markup. -/
def spaceLength (t : Text) : Nat := (t.takeWhile isSpace).length

/-- The length of the leading blanks of any kind. -/
def gapLength (t : Text) : Nat := (t.takeWhile isGap).length

/-- The blanks and the comment at the start of a text: the length of each. -/
def leadingComment? (t : Text) : Option (Nat × Nat) :=
  (commentLength? (t.drop (gapLength t))).map fun n => (gapLength t, n)

/-- The length of the leading comments, with the blanks before each. -/
def commentsLength : Text → Nat
  | [] => 0
  | c :: cs =>
      match leadingComment? (c :: cs) with
      | some (gap, n) => gap + n + commentsLength (cs.drop (gap + n - 1))
      | none => 0
termination_by t => t.length
decreasing_by simp only [List.length_cons, List.length_drop]; omega

/-- The length of what may stand before the name of a tag. -/
def beforeName (t : Text) : Nat := commentsLength t + gapLength (t.drop (commentsLength t))

/-- The length of what may stand before another token of a tag. -/
def beforeToken (t : Text) : Nat := commentsLength t + spaceLength (t.drop (commentsLength t))

/-- The length of a text without the blanks at its end. -/
def trimmedLength (t : Text) : Nat := (t.reverse.dropWhile isSpace).length

-- ========================================================= attributes

/-- The value at the start of a text: quoted, or a run without blanks.
Comments right after an opening quote do not belong to it. -/
def value? (offset : Nat) (t : Text) : Option (Node × Nat) :=
  match t with
  | [] => none
  | q :: cs =>
      if q = '"' ∨ q = '\'' then
        let skip := commentsLength cs
        let n := ((cs.drop skip).takeWhile fun c => c ≠ q && c.val ≠ 0).length
        let start := offset + 1 + skip
        if Text.starts q (cs.drop (skip + n)) then
          some (.leaf .attributeValue start (start + n), skip + n + 2)
        else none
      else
        let n := (t.takeWhile isValueChar).length
        if n = 0 then none else some (.leaf .attributeValue offset (offset + n), n)

/-- The attribute at the start of a text, or where its value is missing. -/
def readAttribute (offset : Nat) (t : Text) : Except Nat (Node × Nat) :=
  let n := (t.takeWhile isAttributeChar).length
  let label := Node.leaf .attributeName offset (offset + n)
  let gap := n + beforeToken (t.drop n)
  if Text.starts '=' (t.drop gap) then
    let start := gap + 1 + beforeToken (t.drop (gap + 1))
    match value? (offset + start) (t.drop start) with
    | some (value, k) =>
        .ok (.branch .attribute offset (offset + start + k) [label, value], start + k)
    | none => .error start
  else .ok (.branch .attribute offset (offset + n) [label], n)

/-- How a tag ends. `cut` means that the text ends first; the end of the
tag is missed behind its last token. -/
inductive TagEnd where
  | opened
  | selfClosed
  | cut (place : Nat)
  | broken
  deriving DecidableEq, Repr

/-- The attributes of a tag, its end, and the length of both. -/
structure TagBody where
  children : List Node
  ending : TagEnd
  length : Nat

namespace TagBody

/-- The body with something in front. -/
def after (nodes : List Node) (n : Nat) (b : TagBody) : TagBody :=
  ⟨nodes ++ b.children, b.ending, n + b.length⟩

end TagBody

/-- The rest of a tag whose next code point fits nowhere: all up to the
end of the tag is malformed. -/
def brokenBody (offset : Nat) (t : Text) : TagBody :=
  let run := t.takeWhile fun (c : CodePoint) => c ≠ '<' && c ≠ '>' && c.val ≠ 0
  if !run.isEmpty && Text.starts '>' (t.drop run.length) then
    ⟨[.broken .fault offset (offset + trimmedLength run)], .opened, run.length + 1⟩
  else ⟨[.broken .fault offset (offset + t.length)], .broken, t.length⟩

/-- The attributes and the end of a tag, after its name or an attribute
that ends at `last`. -/
def tagBody (last offset : Nat) : Text → TagBody
  | [] => ⟨[], .cut last, 0⟩
  | c :: cs =>
      let skip := commentsLength (c :: cs)
      let gap := gapLength (c :: cs)
      if skip ≠ 0 then
        (tagBody (offset + skip) (offset + skip) (cs.drop (skip - 1))).after [] skip
      else if (Text.after? ['/', '>'] ((c :: cs).drop gap)).isSome then ⟨[], .selfClosed, gap + 2⟩
      else if isSpace c then
        let n := spaceLength (c :: cs)
        (tagBody last (offset + n) (cs.drop (n - 1))).after [] n
      else if c = '>' then ⟨[], .opened, 1⟩
      else if isAttributeChar c then
        match readAttribute offset (c :: cs) with
        | .ok (node, n) => (tagBody (offset + n) (offset + n) (cs.drop (n - 1))).after [node] n
        | .error k => (brokenBody (offset + k) ((c :: cs).drop k)).after [] k
      else brokenBody offset (c :: cs)
termination_by t => t.length
decreasing_by all_goals (simp only [List.length_cons, List.length_drop]; omega)

-- =============================================================== tags

/-- All that is left of a text, as malformed. -/
def unreadable (offset : Nat) (t : Text) : Piece × Nat :=
  (.final (.broken .fault offset (offset + t.length)), t.length)

/-- The length of raw text up to its end tag. The delimiter is in upper
case, `left` is what is still to be seen of it, and a mismatch starts it
over behind the code point that did not fit. -/
def rawLength? (delimiter : Text) (length matched : Nat) : Text → Text → Option Nat
  | [], _ => some length
  | _ :: _, [] => none
  | l :: left, c :: cs =>
      if c.upper = l then rawLength? delimiter length (matched + 1) left cs
      else rawLength? delimiter (length + matched + 1) 0 delimiter cs

/-- The end tag at the start of a text that follows `</`: its name, whether
it is tight, the node of the name, and the length up to and with `>`. -/
def endTag? (offset : Nat) (t : Text) : Option (TagName × Bool × Node × Nat) :=
  let gap := beforeName t
  let label := (t.drop gap).takeWhile isTagChar
  let stop := gap + label.length
  let n := stop + beforeToken (t.drop stop)
  if !label.isEmpty && Text.starts '>' (t.drop n) then
    some (TagName.ofText label, gap = 0, .leaf .tagName (offset + gap) (offset + stop), n + 1)
  else none

/-- The rest of an element whose content is raw text, after its start tag:
the text and the end tag. -/
def rawElement? (kind : Kind) (name : String) (tag : Node) (t : Text) :
    Option (Node × Nat) := do
  let delimiter : Text := '<' :: '/' :: (Text.ofString name).map CodePoint.upper
  let n ← rawLength? delimiter 0 0 delimiter t
  let start := tag.stop + n
  let (closer, _, label, k) ← endTag? (start + 2) (t.drop (n + 2))
  let stop := start + 2 + k
  if closer = .listed name then
    some (.branch kind tag.start stop
      [tag, .leaf .rawText tag.stop start, .branch .endTag start stop [label]], n + 2 + k)
  else none

/-- The names of elements whose content is raw text, with their kinds. -/
def rawKind? : TagName → Option (String × Kind)
  | .listed "script" => some ("script", .script)
  | .listed "style" => some ("style", .style)
  | _ => none

/-- The piece that begins with a start tag; `t` follows the bracket. -/
def startTag (offset : Nat) (t : Text) : Piece × Nat :=
  let gap := beforeName t
  let label := (t.drop gap).takeWhile isTagChar
  if label.isEmpty then unreadable offset ('<' :: t)
  else
    let name := TagName.ofText label
    let start := offset + 1 + gap
    let stop := start + label.length
    let body := tagBody stop stop (t.drop (gap + label.length))
    let n := 1 + gap + label.length + body.length
    let tag (kind : Kind) : Node :=
      .branch kind offset (offset + n) (.leaf .tagName start stop :: body.children)
    match body.ending, rawKind? name with
    | .broken, _ => (.final (tag .startTag), n)
    | .cut place, none => (.unfinished name (gap = 0) place (tag .startTag), n)
    | .opened, none => (.opening name (gap = 0) (tag .startTag), n)
    | .selfClosed, none =>
        (.complete name (gap = 0) (.branch .element offset (offset + n) [tag .selfClosingTag]), n)
    | .opened, some (word, kind) =>
        match rawElement? kind word (tag .startTag) (t.drop (n - 1)) with
        | some (element, k) => (.raw name (gap = 0) element, n + k)
        | none => unreadable offset ('<' :: t)
    | _, some _ => unreadable offset ('<' :: t)

/-- The length of a document type after `<!`. -/
def doctypeLength? (t : Text) : Option Nat :=
  let gap := beforeToken t
  let word := (t.drop gap).take 7
  let start := gap + 7 + commentsLength (t.drop (gap + 7))
  let rest := t.drop start
  let n := (rest.takeWhile fun (c : CodePoint) => c ≠ '>' && c.val ≠ 0).length
  if word.map CodePoint.upper = Text.ofString "DOCTYPE" && n ≠ 0
      && Text.starts '>' (rest.drop n) then
    some (start + n + 1)
  else none

/-- The piece that begins with an angle bracket and is no comment; `t`
follows the bracket. -/
def bracketPiece (offset : Nat) (t : Text) : Piece × Nat :=
  if Text.starts '!' t then
    match doctypeLength? (t.drop 1) with
    | some n => (.plain (.leaf .doctype offset (offset + n + 2)), n + 2)
    | none => unreadable offset ('<' :: t)
  else if Text.starts '/' t then
    match endTag? (offset + 2) (t.drop 1) with
    | some (name, tight, label, n) =>
        (.closing name tight offset (offset + n + 2) label, n + 2)
    | none => unreadable offset ('<' :: t)
  else startTag offset t

-- =============================================================== text

/-- The length of the entity at the start of a text that follows an
ampersand. -/
def entityLength? (t : Text) : Option Nat :=
  let closed (n : Nat) : Nat := if Text.starts ';' (t.drop n) then n + 1 else n
  if Text.starts '#' t then
    let digits := ((t.drop 1).take 5).takeWhile CodePoint.isAsciiDigit
    let hexDigits := ((t.drop 2).take 6).takeWhile CodePoint.isHex
    if Text.starts 'x' (t.drop 1) || Text.starts 'X' (t.drop 1) then
      if hexDigits.isEmpty then none else some (closed (hexDigits.length + 2))
    else if digits.isEmpty then none
    else some (closed (digits.length + 1))
  else
    let letters := (t.take 30).takeWhile CodePoint.isAsciiLetter
    if letters.isEmpty then none else some (closed letters.length)

/-- Where a malformed run ends, when `passed` code points were looked at
and it reached up to `stop` so far. It goes on up to the next tag or
entity, over comments too, but ends neither in a comment nor in blanks. -/
def brokenLength (passed stop : Nat) : Text → Nat
  | [] => stop
  | c :: cs =>
      if c = '<' then
        match commentLength? (c :: cs) with
        | some n => brokenLength (passed + n) stop (cs.drop (n - 1))
        | none => stop
      else if c = '&' ∧ (entityLength? cs).isSome then stop
      else brokenLength (passed + 1) (if isSpace c then stop else passed + 1) cs
termination_by t => t.length
decreasing_by all_goals (simp only [List.length_cons, List.length_drop]; omega)

/-- The malformed run that begins before a text with a code point that fits
nowhere. -/
def brokenText (offset : Nat) (t : Text) : Piece × Nat :=
  let n := brokenLength 1 1 t
  (.plain (.broken .fault offset (offset + n)), n)

/-- The piece at the start of a text that does not begin with a blank of
the markup. -/
def nextPiece (offset : Nat) (c : CodePoint) (cs : Text) : Piece × Nat :=
  match leadingComment? (c :: cs) with
  | some (gap, n) => (.plain (.leaf .comment (offset + gap) (offset + gap + n)), gap + n)
  | none =>
      if c = '<' then bracketPiece offset cs
      else if c = '&' then
        match entityLength? cs with
        | some n => (.plain (.leaf .entity offset (offset + n + 1)), n + 1)
        | none => brokenText offset cs
      else if isTextChar c then
        let run := (c :: cs).takeWhile isTextChar
        (.plain (.leaf .text offset (offset + trimmedLength run)), run.length)
      else brokenText offset cs

/-- The pieces of a text that starts at an offset. -/
def pieces (offset : Nat) : Text → List Piece
  | [] => []
  | c :: cs =>
      if isSpace c then pieces (offset + 1) cs
      else
        match nextPiece offset c cs with
        | (.final node, _) => [.final node]
        | (piece, n) => piece :: pieces (offset + 1 + (n - 1)) (cs.drop (n - 1))
termination_by t => t.length
decreasing_by all_goals (simp only [List.length_cons, List.length_drop]; omega)

end KeyHarvest.Markup
