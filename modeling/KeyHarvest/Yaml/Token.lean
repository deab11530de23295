/-
Tokens of a configuration document. Indentation becomes marks: a block
collection is opened where a line is indented deeper than the collection
around it, and closed where a line is indented less. That a scalar was a
key shows only at the colon behind it, so every place where a key may
begin is remembered, one for each level of brackets, and the mark of the
key is put there afterwards. Such a key ends on the line where it began.

Anchors, aliases, tags and directives are outside the format, and a
document with one of them is not read. That is no fault of its author.
-/
import KeyHarvest.Yaml.Scalar

namespace KeyHarvest.Yaml

/-- The tokens of a document. -/
inductive Token where
  | documentStart
  | documentEnd
  | listStart
  | mapStart
  | blockEnd
  | openBracket
  | closeBracket
  | openBrace
  | closeBrace
  | comma
  | dash
  | key
  | value
  | scalar (text : Text) (isPlain : Bool)
  deriving DecidableEq, Repr

-- ============================================================= state

/-- A place in a document: its line, its column from zero, and how many
code points stand before it. -/
structure Mark where
  line : Nat
  column : Nat
  offset : Nat
  deriving DecidableEq, Repr

/-- The place behind one more code point. -/
def Mark.next (m : Mark) (c : CodePoint) : Mark :=
  ⟨if c = '\n' then m.line + 1 else m.line, columnAfter m.column c, m.offset + 1⟩

/-- A place where a key may begin: the number of tokens before it, the
level of brackets, and whether only a key can stand there. -/
structure Opening where
  index : Nat
  level : Nat
  required : Bool
  mark : Mark
  deriving DecidableEq, Repr

/-- A document that is read up to some place. `brackets` has true for
every open bracket and false for every open brace, the innermost first;
`indents` has the columns of the open block collections. -/
structure Scan where
  rest : Text
  mark : Mark
  tokens : List Token
  brackets : List Bool
  indents : List Nat
  keyAllowed : Bool
  openings : List Opening
  deriving Repr

namespace Scan

/-- A document of which nothing is read. -/
def start (t : Text) : Scan := ⟨t, ⟨0, 0, 0⟩, [], [], [], true, []⟩

/-- The number of open brackets and braces. -/
def level (s : Scan) : Nat := s.brackets.length

/-- Whether reading stands inside brackets or braces. -/
def inFlow (s : Scan) : Bool := !s.brackets.isEmpty

/-- The least indentation of what belongs to the innermost block
collection. -/
def innerIndent (s : Scan) : Nat :=
  match s.indents with
  | [] => 0
  | i :: _ => i + 1

/-- The document read up to a later place. -/
def moveTo (s : Scan) (rest : Text) : Scan :=
  { s with rest := rest
           mark := (s.rest.take (s.rest.length - rest.length)).foldl Mark.next s.mark }

/-- The document read on by so many code points. -/
def advance (s : Scan) (n : Nat) : Scan := s.moveTo (s.rest.drop n)

/-- One more token. -/
def emit (s : Scan) (t : Token) : Scan := { s with tokens := s.tokens ++ [t] }

/-- The tokens with one put at an earlier place. -/
def insertAt (s : Scan) (index : Nat) (t : Token) : Scan :=
  { s with tokens := s.tokens.take index ++ t :: s.tokens.drop index }

/-- Whether a key may begin here. -/
def allowKey (s : Scan) (allowed : Bool) : Scan := { s with keyAllowed := allowed }

-- ============================================================== keys

/-- The opening of the current level is given up, which it may not be
when only a key can stand there. -/
def dropOpening (s : Scan) : Except Fault Scan :=
  if s.openings.any fun o => o.level = s.level && o.required then .error .missingColon
  else .ok { s with openings := s.openings.filter fun o => o.level ≠ s.level }

/-- Whether a key that began at an opening would be too long by now. -/
def isStale (s : Scan) (o : Opening) : Bool :=
  o.mark.line ≠ s.mark.line || o.mark.offset + 1024 < s.mark.offset

/-- Openings that no key can end any more are given up. -/
def dropStale (s : Scan) : Except Fault Scan :=
  if s.openings.any fun o => s.isStale o && o.required then .error .missingColon
  else .ok { s with openings := s.openings.filter fun o => !s.isStale o }

/-- Here a key may begin, if one is allowed. -/
def saveOpening (s : Scan) : Except Fault Scan :=
  if s.keyAllowed then do
    let s ← s.dropOpening
    return { s with openings :=
      ⟨s.tokens.length, s.level, !s.inFlow && s.indents.head? = some s.mark.column, s.mark⟩
        :: s.openings }
  else .ok s

-- ======================================================= indentation

/-- Whether a column is deeper than the innermost block collection. -/
def isDeeper (s : Scan) (column : Nat) : Bool :=
  match s.indents with
  | [] => true
  | i :: _ => i < column

/-- A block collection is opened at a column, if that is deeper; its mark
is put at an earlier place. -/
def openBlock (s : Scan) (column index : Nat) (t : Token) : Scan :=
  if s.isDeeper column then { s with indents := column :: s.indents }.insertAt index t else s

/-- The block collections deeper than a column are closed. -/
def closeBlocks (s : Scan) (column : Nat) : Scan :=
  if s.inFlow then s
  else
    { s with tokens := s.tokens ++ (s.indents.takeWhile (column < ·)).map fun _ => .blockEnd
             indents := s.indents.dropWhile (column < ·) }

/-- All block collections are closed. -/
def closeAll (s : Scan) : Scan :=
  if s.inFlow then s
  else { s with tokens := s.tokens ++ s.indents.map fun _ => .blockEnd, indents := [] }

-- ============================================================ tokens

/-- Skips blanks, comments and line ends, and tells whether a line end was
passed. A tab is a blank only inside brackets. -/
def skipBlanks (flow comment passed : Bool) : Text → Text × Bool
  | [] => ([], passed)
  | c :: cs =>
      if isLineEnd c then skipBlanks flow false true cs
      else if comment then skipBlanks flow true passed cs
      else if isBreak c then skipBlanks flow false true cs
      else if c = ' ' || (flow && c = '\t') then skipBlanks flow false passed cs
      else if c = '#' then skipBlanks flow true passed cs
      else (c :: cs, passed)

/-- Goes on to the next token and closes what ends before it. -/
def toToken (s : Scan) : Except Fault Scan := do
  let (rest, passed) := skipBlanks s.inFlow false false s.rest
  let s := s.moveTo rest
  let s ← (if passed && !s.inFlow then s.allowKey true else s).dropStale
  return if rest.isEmpty then s else s.closeBlocks s.mark.column

/-- A mark that separates documents. -/
def separator (s : Scan) (t : Token) : Except Fault Scan := do
  let s ← s.closeAll.dropOpening
  return ((s.allowKey false).emit t).advance 3

/-- An opening bracket or brace. -/
def openFlow (s : Scan) (isBracket : Bool) (t : Token) : Except Fault Scan := do
  let s ← s.saveOpening
  return ({ s with brackets := isBracket :: s.brackets, keyAllowed := true }.emit t).advance 1

/-- A closing bracket or brace. -/
def closeFlow (s : Scan) (t : Token) : Except Fault Scan := do
  let s ← s.dropOpening
  return ({ s with brackets := s.brackets.drop 1, keyAllowed := false }.emit t).advance 1

/-- A comma between entries in brackets. -/
def flowComma (s : Scan) : Except Fault Scan := do
  let s ← s.dropOpening
  return ((s.allowKey true).emit .comma).advance 1

/-- A dash before an entry of a block list. -/
def blockDash (s : Scan) : Except Fault Scan := do
  if !s.inFlow && !s.keyAllowed then .error .misplacedEntry
  else
    let s := if s.inFlow then s else s.openBlock s.mark.column s.tokens.length .listStart
    let s ← s.dropOpening
    return ((s.allowKey true).emit .dash).advance 1

/-- A question mark before a key. -/
def explicitKey (s : Scan) : Except Fault Scan := do
  if !s.inFlow && !s.keyAllowed then .error .misplacedKey
  else
    let s := if s.inFlow then s else s.openBlock s.mark.column s.tokens.length .mapStart
    let s ← s.dropOpening
    return ((s.allowKey (!s.inFlow)).emit .key).advance 1

/-- A colon before a value. The opening of its level, if there is one,
was a key. -/
def colon (s : Scan) : Except Fault Scan := do
  match s.openings.find? fun o => o.level = s.level with
  | some o =>
      let s := { s with openings := s.openings.filter fun o => o.level ≠ s.level }
      let s := s.insertAt o.index .key
      let s := if s.inFlow then s else s.openBlock o.mark.column o.index .mapStart
      return ((s.allowKey false).emit .value).advance 1
  | none =>
      if !s.inFlow && !s.keyAllowed then .error .misplacedValue
      else
        let s := if s.inFlow then s else s.openBlock s.mark.column s.tokens.length .mapStart
        let s ← (s.allowKey (!s.inFlow)).dropOpening
        return (s.emit .value).advance 1

/-- Whether a colon in front of `after` separates a key from its value. In
braces it does so unless it stands at the start of a value, in brackets
and in blocks when a blank follows. -/
def isColon (s : Scan) (after : Text) : Bool :=
  match s.brackets with
  | false :: _ => s.tokens.getLast? ≠ some .value || atBlank after
  | _ => atBlank after

/-- A quotation. -/
def quoted (s : Scan) (double : Bool) : Except Fault Scan := do
  let s ← s.saveOpening
  let (text, rest) ← quotation double (s.rest.length + 1) (s.rest.drop 1)
  return ((s.allowKey false).moveTo rest).emit (.scalar text false)

/-- A block scalar. -/
def blockText (s : Scan) (fold : Bool) : Except Fault Scan := do
  let s ← (s.allowKey true).dropOpening
  let (text, rest) ← block fold s.innerIndent (s.mark.column + 1) (s.rest.drop 1)
  return (s.moveTo rest).emit (.scalar text false)

/-- A plain scalar. -/
def plainText (s : Scan) : Except Fault Scan := do
  let s ← s.saveOpening
  let p := plain s.inFlow s.innerIndent (s.rest.length + 1) s.mark.column s.rest
  return ((s.allowKey p.passedLine).moveTo p.rest).emit (.scalar p.text true)

/-- The code points that begin no plain scalar, whatever follows. -/
def reserved : Text := ",[]{}#&*!|>'\"%@\x60\t"

/-- Whether a plain scalar begins with `c` in front of `after`. -/
def beginsPlain (s : Scan) (c : CodePoint) (after : Text) : Bool :=
  if c = '-' then !atBlank after
  else if c = '?' then !s.inFlow && !atBlank after
  else if c = ':' then !(s.inFlow && (Text.starts ' ' after || Text.starts '\t' after))
      && (s.inFlow || !atBlank after)
  else !reserved.contains c

/-- Whether `c` begins what is outside the format: an anchor, an alias, a
tag or a directive. -/
def beginsForeign (s : Scan) (c : CodePoint) : Bool :=
  c = '&' || c = '*' || c = '!' || (s.mark.column = 0 && c = '%')

/-- Reads the token that begins with `c`. -/
def token (s : Scan) (c : CodePoint) (after : Text) : Except Fault Scan :=
  if s.beginsForeign c then .error .unsupported
  else if s.mark.column = 0 && c = '-' && atSeparator s.rest then s.separator .documentStart
  else if s.mark.column = 0 && c = '.' && atSeparator s.rest then s.separator .documentEnd
  else if c = '[' then s.openFlow true .openBracket
  else if c = '{' then s.openFlow false .openBrace
  else if c = ']' then s.closeFlow .closeBracket
  else if c = '}' then s.closeFlow .closeBrace
  else if c = ',' then s.flowComma
  else if c = '-' && atBlank after then s.blockDash
  else if c = '?' && (s.inFlow || atBlank after) then s.explicitKey
  else if c = ':' && s.isColon after then s.colon
  else if c = '|' && !s.inFlow then s.blockText false
  else if c = '>' && !s.inFlow then s.blockText true
  else if c = '\'' then s.quoted false
  else if c = '"' then s.quoted true
  else if s.beginsPlain c after then s.plainText
  else .error .strayCharacter

/-- Reads all tokens. Every token takes at least one code point, so the
length of the document is fuel enough. -/
def tokensFrom : Nat → Scan → Except Fault (List Token)
  | 0, _ => .error .strayCharacter
  | fuel + 1, s => do
      let s ← s.toToken
      match s.rest with
      | [] =>
          let s ← s.closeAll.dropOpening
          return s.tokens
      | c :: after => tokensFrom fuel (← s.token c after)

end Scan

/-- A code point that may stand in a document. -/
def isPrintable (c : CodePoint) : Bool :=
  c.inRanges [(9, 10), (13, 13), (0x20, 0x7E), (0x85, 0x85), (0xA0, 0xD7FF), (0xE000, 0xFFFD),
    (0x10000, 0x10FFFF)]

/-- The tokens of a document. A byte order mark in front is left out. -/
def tokens (t : Text) : Except Fault (List Token) :=
  if t.all isPrintable then
    Scan.tokensFrom (t.length + 1)
      (Scan.start (match t with
        | c :: cs => if c.val = 0xFEFF then cs else c :: cs
        | [] => []))
  else .error .control

end KeyHarvest.Yaml
