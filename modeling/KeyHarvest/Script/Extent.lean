/-
How far the parts of a script reach: words, numbers, strings, regular
expressions, comments, and what belongs to markup inside a script. Every
length counts code points from the start of the given text, which for the
quoted parts is the place behind the opening quote.
-/
import KeyHarvest.Text.Basic

namespace KeyHarvest.Script

-- =========================================================== characters

/-- Blanks of a script, among them three that have no width. -/
def isSpace (c : CodePoint) : Bool :=
  c.inRanges [(0x9, 0xD), (0x20, 0x20), (0xA0, 0xA0), (0x1680, 0x1680), (0x2000, 0x200B),
    (0x2028, 0x2029), (0x202F, 0x202F), (0x205F, 0x2060), (0x3000, 0x3000), (0xFEFF, 0xFEFF)]

/-- The end of a line. -/
def isLineEnd (c : CodePoint) : Bool :=
  c = '\n' || c = '\r' || c.within 0x2028 0x2029

/-- A code point of a word. Beyond ASCII all but blanks are. -/
def isWordChar (c : CodePoint) : Bool :=
  c.isAsciiLetter || c.isAsciiDigit || c = '_' || c = '$' || (0x80 ≤ c.val && !isSpace c)

-- ==================================================== words and numbers

/-- The length of an escape inside a word, after its backslash. -/
def escapeLength? (t : Text) : Option Nat :=
  if !Text.starts 'u' t then none
  else if Text.starts '{' (t.drop 1) then
    let n := ((t.drop 2).takeWhile CodePoint.isHex).length
    if n ≠ 0 ∧ Text.starts '}' (t.drop (n + 2)) then some (n + 3) else none
  else if (((t.drop 1).take 4).takeWhile CodePoint.isHex).length = 4 then some 5
  else none

/-- The length of the word at the start of a text. -/
def wordLength : Text → Nat
  | [] => 0
  | c :: cs =>
      if isWordChar c then wordLength cs + 1
      else if c = '\\' then
        match escapeLength? cs with
        | some n => n + 1 + wordLength (cs.drop n)
        | none => 0
      else 0
termination_by t => t.length
decreasing_by all_goals (simp only [List.length_cons, List.length_drop]; omega)

/-- The length of a numeral behind the code point `last`. A sign belongs to
it only after the letter of an exponent. -/
def numberLength (hex : Bool) (last : CodePoint) : Text → Nat
  | [] => 0
  | c :: cs =>
      if isWordChar c || c = '.' then numberLength hex c cs + 1
      else if !hex && (c = '+' || c = '-') && (last = 'e' || last = 'E') then
        numberLength hex c cs + 1
      else 0

/-- Whether a numeral that begins with `c` is hexadecimal. -/
def isHexNumeral (c : CodePoint) (cs : Text) : Bool :=
  c = '0' && (Text.starts 'x' cs || Text.starts 'X' cs)

-- ======================================================== quoted parts

/-- The length of a string up to and with its closing quote. Only an
escaped line end may stand in it. -/
def stringLength? (q : CodePoint) : Text → Option Nat
  | [] => none
  | c :: cs =>
      if c = q then some 1
      else if c = '\n' ∨ c = '\r' then none
      else if c = '\\' then
        match cs with
        | [] => none
        | [_] => none
        | d :: e :: ds =>
            if d = '\r' ∧ e = '\n' then (stringLength? q ds).map (· + 3)
            else (stringLength? q (e :: ds)).map (· + 2)
      else (stringLength? q cs).map (· + 1)

/-- The length of a regular expression up to and with its closing slash; a
slash inside a character class does not close it. -/
def regexLength? (inClass : Bool) : Text → Option Nat
  | [] => none
  | c :: cs =>
      if c = '\n' then none
      else if c = '/' && !inClass then some 1
      else if c = '\\' then
        match cs with
        | [] => none
        | _ :: ds => (regexLength? inClass ds).map (· + 2)
      else
        let inClass := if c = '[' then true else if c = ']' then false else inClass
        (regexLength? inClass cs).map (· + 1)

/-- The length up to and with the next `q`; nothing is escaped. -/
def quotedLength? (q : CodePoint) (t : Text) : Option Nat :=
  let n := (t.takeWhile (· ≠ q)).length
  if n < t.length then some (n + 1) else none

-- ============================================================ comments

/-- The length of a comment that ends with `*/`, after its opening. -/
def blockCommentLength : Text → Nat
  | [] => 0
  | c :: cs => if c = '*' ∧ Text.starts '/' cs then 2 else blockCommentLength cs + 1

/-- The length of a comment behind its first slash. -/
def commentLength? (t : Text) : Option Nat :=
  if Text.starts '/' t then some (t.takeWhile (!isLineEnd ·)).length
  else if Text.starts '*' t then some (blockCommentLength (t.drop 1) + 1)
  else none

/-- The length of the line that names the program for a script. -/
def commandLineLength (t : Text) : Nat :=
  if (Text.after? ['#', '!'] t).isSome then (t.takeWhile (!isLineEnd ·)).length else 0

-- ============================================================== markup

/-- The length of type arguments behind a code point, when `depth` angle
brackets are open. The bracket of an arrow closes none. -/
def typesLength (depth : Nat) (last : CodePoint) : Text → Nat
  | [] => 0
  | c :: cs =>
      if c = '<' then typesLength (depth + 1) c cs + 1
      else if c = '>' ∧ last ≠ '=' then
        match depth with
        | 0 | 1 => 1
        | depth + 2 => typesLength (depth + 1) c cs + 1
      else typesLength depth c cs + 1

/-- Whether an end tag of a name stands somewhere in a text. -/
def holdsEndTag (name : Text) : Text → Bool
  | [] => false
  | c :: cs =>
      (match Text.after? ('<' :: '/' :: name) (c :: cs) with
        | some rest => Text.starts '>' (rest.dropWhile isSpace)
        | none => false)
        || holdsEndTag name cs

/-- Whether the text behind an angle bracket, where an operand is expected,
goes on as an element. Type parameters have a comma, a default or a bound
behind the first name, or no end tag of that name behind them. -/
def startsElement (t : Text) : Bool :=
  let t := t.dropWhile isSpace
  let name := t.take (wordLength t)
  let rest := (t.drop name.length).dropWhile isSpace
  if name.isEmpty then Text.starts '>' t
  else if name = Text.ofString "const" then false
  else if Text.starts ',' rest || Text.starts '=' rest then false
  else if rest.take (wordLength rest) = Text.ofString "extends" then
    Text.starts '=' ((rest.drop 7).dropWhile isSpace)
  else if Text.starts '>' rest then holdsEndTag name rest
  else true

end KeyHarvest.Script
