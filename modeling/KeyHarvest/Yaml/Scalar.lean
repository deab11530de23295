/-
The texts of scalars in a document: plain, quoted and block. Each reader
takes the document from where the scalar stands and gives its text with
what follows it.

A scalar of several lines is folded: a single line end is a space, and of
several in a row one is dropped. A literal block keeps its lines as they
are. A line feed and the next-line control end a line; the separators of
lines and paragraphs do so only where a line end is expected, and they are
never folded. Columns begin anew behind a line feed alone.
-/
import KeyHarvest.Text.Basic
import KeyHarvest.Yaml.Fault

namespace KeyHarvest.Yaml

-- ======================================================= line breaks

/-- A space or a tab. -/
def isSpaceOrTab (c : CodePoint) : Bool := c = ' ' || c = '\t'

/-- The end of a line anywhere. -/
def isLineEnd (c : CodePoint) : Bool := c = '\n' || c.val = 0x85

/-- The end of a line where one is expected. -/
def isBreak (c : CodePoint) : Bool := isLineEnd c || c.within 0x2028 0x2029

/-- What the end of a line stands for. -/
def breakOf (c : CodePoint) : CodePoint := if isLineEnd c then '\n' else c

/-- The column behind one more code point. A byte order mark takes none. -/
def columnAfter (column : Nat) (c : CodePoint) : Nat :=
  if c = '\n' then 0 else if c.val = 0xFEFF then column else column + 1

/-- The column behind a text. -/
def columnOver (column : Nat) (t : Text) : Nat := t.foldl columnAfter column

/-- Whether a text is at its end or goes on with a blank. -/
def atBlank : Text → Bool
  | [] => true
  | c :: _ => isSpaceOrTab c || isLineEnd c

/-- Whether a mark that separates documents stands at the start of a
line. -/
def atSeparator (line : Text) : Bool :=
  ((Text.ofString "---").isPrefixOf line || (Text.ofString "...").isPrefixOf line)
    && atBlank (line.drop 3)

/-- What line ends in a row are folded to, when more follow the first
one. -/
def folded (first : CodePoint) (more : Text) : Text :=
  if first ≠ '\n' then first :: more else if more.isEmpty then " " else more

/-- Where reading stands after line ends: those that were passed, the
column, and the rest of the document. -/
structure Landing where
  breaks : Text
  column : Nat
  rest : Text

/-- Skips spaces and empty lines; none in front of a separator of
documents, with the rest of the document. -/
def skipLines (breaks : Text) (column : Nat) : Text → Except Text Landing
  | [] => .ok ⟨breaks, column, []⟩
  | c :: cs =>
      if c = ' ' then skipLines breaks (column + 1) cs
      else if isBreak c then
        if atSeparator cs then .error cs
        else skipLines (breaks ++ [breakOf c]) (columnAfter column c) cs
      else .ok ⟨breaks, column, c :: cs⟩

-- ============================================================= plain

/-- A code point that ends a plain scalar inside brackets. -/
def isFlowMark (c : CodePoint) : Bool :=
  c = ',' || c = '[' || c = ']' || c = '{' || c = '}'

/-- A piece of a plain scalar without blanks: up to a blank, a colon
before a blank, or inside brackets one of their marks. -/
def plainPiece (flow : Bool) : Text → Text × Text
  | [] => ([], [])
  | c :: cs =>
      if isSpaceOrTab c || isLineEnd c || (c = ':' && atBlank cs) || (flow && isFlowMark c) then
        ([], c :: cs)
      else (c :: (plainPiece flow cs).1, (plainPiece flow cs).2)

/-- A plain scalar as read: its text, what follows, and whether a line end
was passed behind it. -/
structure Plain where
  text : Text
  rest : Text
  passedLine : Bool

/-- The plain scalar at the start of a document that stands in a column.
Outside brackets its lines are indented by at least `indent`; a comment
ends it. The fuel bounds the number of pieces. -/
def plain (flow : Bool) (indent : Nat) : Nat → Nat → Text → Plain
  | 0, _, t => ⟨[], t, false⟩
  | fuel + 1, column, t =>
      let (piece, after) := plainPiece flow t
      let blanks := after.takeWhile fun (c : CodePoint) => c = ' '
      let column := columnOver column (piece ++ blanks)
      match after.drop blanks.length with
      | [] => ⟨piece, [], true⟩
      | c :: cs =>
          if isBreak c then
            if atSeparator cs then ⟨piece, cs, true⟩
            else
              match skipLines [] (columnAfter column c) cs with
              | .error rest => ⟨piece, rest, true⟩
              | .ok l =>
                  if Text.starts '#' l.rest || (!flow && l.column < indent) then
                    ⟨piece, l.rest, true⟩
                  else
                    let more := plain flow indent fuel l.column l.rest
                    if more.text.isEmpty then ⟨piece, l.rest, true⟩
                    else
                      ⟨piece ++ folded (breakOf c) l.breaks ++ more.text, more.rest,
                        more.passedLine⟩
          else if blanks.isEmpty || c = '#' then ⟨piece, c :: cs, false⟩
          else
            let more := plain flow indent fuel column (c :: cs)
            if more.text.isEmpty then ⟨piece, c :: cs, false⟩
            else ⟨piece ++ blanks ++ more.text, more.rest, more.passedLine⟩

-- ============================================================ quoted

/-- Skips blanks and empty lines inside a quotation; a separator of
documents may not stand there. -/
def skipQuotedLines (breaks : Text) (lineStart : Bool) : Text → Option (Text × Text)
  | [] => some (breaks, [])
  | c :: cs =>
      if lineStart && atSeparator (c :: cs) then none
      else if isSpaceOrTab c then skipQuotedLines breaks false cs
      else if isBreak c then skipQuotedLines (breaks ++ [breakOf c]) true cs
      else some (breaks, c :: cs)

/-- What a letter behind a backslash stands for. -/
def escapes : List (Char × Nat) :=
  [('0', 0), ('a', 7), ('b', 8), ('t', 9), ('\t', 9), ('n', 10), ('v', 11), ('f', 12), ('r', 13),
   ('e', 27), (' ', 32), ('"', 34), ('/', 47), ('\\', 92), ('N', 0x85), ('_', 0xA0),
   ('L', 0x2028), ('P', 0x2029)]

/-- How many hexadecimal digits follow a letter behind a backslash. -/
def hexWidth? (c : CodePoint) : Option Nat :=
  if c = 'x' then some 2 else if c = 'u' then some 4 else if c = 'U' then some 8 else none

/-- The code point that hexadecimal digits denote. -/
def hexCode? (ds : Text) : Option CodePoint :=
  let n := ds.foldl (fun n c => 16 * n + c.hexValue?.getD 0) 0
  if h : n < 0x110000 then (if ds.all CodePoint.isHex then some ⟨n, h⟩ else none) else none

/-- The rest of a quotation: its text up to the closing quote, and what
follows. A single quote is written twice inside single quotes; between
double quotes a backslash escapes. The fuel bounds the number of pieces. -/
def quotation (double : Bool) : Nat → Text → Except Fault (Text × Text)
  | 0, _ => .error .openQuotation
  | _ + 1, [] => .error .openQuotation
  | fuel + 1, c :: cs => do
      if c = (if double then '"' else '\'') then
        match cs with
        | d :: ds =>
            if !double && d = '\'' then
              let (t, rest) ← quotation double fuel ds
              return (d :: t, rest)
            else return ([], cs)
        | [] => return ([], [])
      else if double && c = '\\' then
        match cs with
        | [] => .error .openQuotation
        | d :: ds =>
            if isBreak d then
              match skipQuotedLines [] true ds with
              | none => .error .openQuotation
              | some (breaks, rest) =>
                  let (t, rest) ← quotation double fuel rest
                  return (breaks ++ t, rest)
            else
              match escapes.find? fun e => CodePoint.ofChar e.1 = d, hexWidth? d with
              | some e, _ =>
                  let (t, rest) ← quotation double fuel ds
                  return (CodePoint.ofNat e.2 :: t, rest)
              | none, some width =>
                  match hexCode? (ds.take width) with
                  | some code =>
                      if ds.length < width then .error .badEscape
                      else
                        let (t, rest) ← quotation double fuel (ds.drop width)
                        return (code :: t, rest)
                  | none => .error .badEscape
              | none, none => .error .badEscape
      else if isSpaceOrTab c || isBreak c then
        let blanks := (c :: cs).takeWhile isSpaceOrTab
        match (c :: cs).drop blanks.length with
        | [] => .error .openQuotation
        | d :: ds =>
            if isBreak d then
              match skipQuotedLines [] true ds with
              | none => .error .openQuotation
              | some (breaks, rest) =>
                  let (t, rest) ← quotation double fuel rest
                  return (folded (breakOf d) breaks ++ t, rest)
            else
              let (t, rest) ← quotation double fuel (d :: ds)
              return (blanks ++ t, rest)
      else
        let (t, rest) ← quotation double fuel cs
        return (c :: t, rest)

-- ============================================================= block

/-- What becomes of the line ends behind a block: one is kept, all are, or
none. -/
inductive Chomping where
  | clip
  | keep
  | strip
  deriving DecidableEq, Repr

/-- The chomping that a sign asks for. -/
def chompingOf? (c : CodePoint) : Option Chomping :=
  if c = '+' then some .keep else if c = '-' then some .strip else none

/-- The indentation that a digit asks for; zero is none. -/
def incrementOf? (c : CodePoint) : Option Nat :=
  if c.within 0x31 0x39 then some (c.val - 0x30) else none

/-- The header of a block behind its mark: the chomping, the indentation
if it is given, and what follows the line of the header. A comment may
stand in it. -/
def header (t : Text) : Except Fault (Chomping × Option Nat × Text) := do
  let (chomping, increment, after) :=
    match t with
    | a :: b :: cs =>
        match chompingOf? a, incrementOf? a, chompingOf? b, incrementOf? b with
        | some ch, _, _, some n => (ch, some n, cs)
        | some ch, _, _, none => (ch, none, b :: cs)
        | none, some n, some ch, _ => (ch, some n, cs)
        | none, some n, none, _ => (.clip, some n, b :: cs)
        | none, none, _, _ => (.clip, none, a :: b :: cs)
    | [a] =>
        match chompingOf? a, incrementOf? a with
        | some ch, _ => (ch, none, [])
        | none, some n => (.clip, some n, [])
        | none, none => (.clip, none, [a])
    | [] => (.clip, none, [])
  if !atBlank after then .error .badHeader
  else
    match after.dropWhile fun (c : CodePoint) => c = ' ' with
    | [] => return (chomping, increment, [])
    | c :: cs =>
        if isLineEnd c then return (chomping, increment, cs)
        else if c = '#' then
          return (chomping, increment, (cs.dropWhile fun c => !isLineEnd c).drop 1)
        else .error .badHeader

/-- Skips empty lines and at most `indent` spaces of every line. -/
def skipIndented (indent : Nat) (breaks : Text) (column : Nat) : Text → Landing
  | [] => ⟨breaks, column, []⟩
  | c :: cs =>
      if c = ' ' ∧ column < indent then skipIndented indent breaks (column + 1) cs
      else if isBreak c then
        skipIndented indent (breaks ++ [breakOf c]) (columnAfter column c) cs
      else ⟨breaks, column, c :: cs⟩

/-- The column where the first empty line ends, if there is one, and the
largest number of spaces in front of the first line with a text and of the
empty lines before it. -/
def deepest (first : Option Nat) (best column : Nat) : Text → Option Nat × Nat
  | [] => (first, best)
  | c :: cs =>
      if c = ' ' then deepest first (max best (column + 1)) (column + 1) cs
      else if isBreak c then deepest (first <|> some column) best (columnAfter column c) cs
      else (first, best)

/-- The indentation of a block that does not give one. A first line of
blanks may not be indented less than what follows, unless it is empty. -/
def indentOf (column : Nat) (t : Text) : Except Fault Nat :=
  match deepest none 0 column t with
  | (some first, best) =>
      if 0 < first ∧ first < best then .error .raggedBlock else .ok best
  | (none, best) => .ok best

/-- The text that a line of a block and the next one are joined by, when
line ends stand between them behind the first one. -/
def joint (fold : Bool) (line next breaks : Text) : Text :=
  let flush (t : Text) : Bool := !(Text.starts ' ' t || Text.starts '\t' t)
  if fold && flush line && flush next then (if breaks.isEmpty then " " else breaks)
  else '\n' :: breaks

/-- The line ends that chomping leaves behind a block whose last line has
one, when more follow it. -/
def Chomping.tail (c : Chomping) (breaks : Text) : Text :=
  match c with
  | .clip => ['\n']
  | .keep => '\n' :: breaks
  | .strip => []

/-- The lines of a block from a landing on, and what follows the block.
The fuel bounds the number of lines. -/
def blockLines (fold : Bool) (chomping : Chomping) (indent : Nat) :
    Nat → Landing → Text × Text
  | 0, l => ([], l.rest)
  | fuel + 1, l =>
      let line := l.rest.takeWhile fun c => !isLineEnd c
      match l.rest.drop line.length with
      | [] => (line, [])
      | e :: after =>
          let next := skipIndented indent [] (columnAfter (columnOver indent line) e) after
          if next.column = indent ∧ ¬ next.rest.isEmpty
              ∧ ¬ (indent = 0 ∧ atSeparator next.rest) then
            let (t, rest) := blockLines fold chomping indent fuel next
            (line ++ joint fold line next.rest next.breaks ++ t, rest)
          else (line ++ chomping.tail next.breaks, next.rest)

/-- The block scalar behind its mark, which ends in a column, in a
collection whose entries must be indented by at least `least`. -/
def block (fold : Bool) (least column : Nat) (t : Text) : Except Fault (Text × Text) := do
  let (chomping, increment, after) ← header t
  let column := columnOver column (t.take (t.length - after.length))
  let indent ← match increment with
    | some n => pure (max least 1 + n - 1)
    | none => (max least ·) <$> indentOf column after
  let first := skipIndented indent [] column after
  if first.column = indent ∧ ¬ first.rest.isEmpty then
    let (t, rest) := blockLines fold chomping indent after.length first
    return (first.breaks ++ t, rest)
  else
    return (if chomping = .keep then first.breaks else [], first.rest)

end KeyHarvest.Yaml
