/-
The value of a configuration document. The reader follows the nesting of
the tokens: what stands where a value is left out is null, a list may be
an entry of a mapping without deeper indentation, and a pair in brackets
is a mapping of one entry. A text holds at most one document, and a key
may not be repeated. Only when all of it is in order do its scalars have
to denote something.
-/
import KeyHarvest.Yaml.Schema
import KeyHarvest.Yaml.Token

namespace KeyHarvest.Yaml

/-- Whether the next token is one of several, or there is none. -/
def ends (marks : List Token) : List Token → Bool
  | [] => true
  | t :: _ => marks.contains t

/-- A mapping with one more entry. -/
def addEntry (entries : List (Value × Value)) (k v : Value) :
    Except Fault (List (Value × Value)) :=
  match k with
  | .map _ => .error .mappingAsKey
  | _ =>
      if entries.any fun e => e.1.sameKey k then .error .repeatedKey
      else .ok (entries ++ [(k, v)])

/-- What may end a value of a block mapping. -/
def blockMarks : List Token := [.key, .value, .blockEnd]

/-- The tokens behind a comma. -/
def afterComma : List Token → Except Fault (List Token)
  | .comma :: ts => .ok ts
  | _ => .error .unexpectedToken

/-- Reading a value from the front of a token list: the value and the
tokens behind it, or the fault. -/
abbrev Outcome := Except Fault (Value × List Token)

mutual

/-- A value. Inside brackets no block collection can begin, and only an
entry of a block mapping can be a list that is not indented. The fuel
bounds the nesting and the number of entries. -/
def node (inBlock inMap : Bool) : Nat → List Token → Outcome
  | 0, _ => .error .unexpectedToken
  | _ + 1, .scalar text isPlain :: ts => do
      return (if isPlain then resolve text else .text text, ts)
  | fuel + 1, .openBracket :: ts => flowList [] true fuel ts
  | fuel + 1, .openBrace :: ts => flowMap [] true fuel ts
  | fuel + 1, .dash :: ts =>
      if inMap then bareList [] fuel (.dash :: ts) else .error .unexpectedToken
  | fuel + 1, .listStart :: ts =>
      if inBlock then blockList [] fuel ts else .error .unexpectedToken
  | fuel + 1, .mapStart :: ts =>
      if inBlock then blockMap [] fuel ts else .error .unexpectedToken
  | _, _ => .error .unexpectedToken

/-- A value, or null in front of one of several marks. -/
def nodeOr (marks : List Token) (inBlock inMap : Bool) : Nat → List Token → Outcome
  | 0, _ => .error .unexpectedToken
  | fuel + 1, ts => if ends marks ts then .ok (.null, ts) else node inBlock inMap fuel ts

/-- The entries of a block list. -/
def blockList (items : List Value) : Nat → List Token → Outcome
  | 0, _ => .error .unexpectedToken
  | fuel + 1, .dash :: ts => do
      let (v, ts) ← nodeOr [.dash, .blockEnd] true false fuel ts
      blockList (items ++ [v]) fuel ts
  | _, .blockEnd :: ts => .ok (.list items, ts)
  | _, _ => .error .unexpectedToken

/-- The entries of a list that is not indented; it ends where no dash
follows. -/
def bareList (items : List Value) : Nat → List Token → Outcome
  | 0, _ => .error .unexpectedToken
  | fuel + 1, .dash :: ts => do
      let (v, ts) ← nodeOr (.dash :: blockMarks) true false fuel ts
      bareList (items ++ [v]) fuel ts
  | _, ts => .ok (.list items, ts)

/-- The entries of a block mapping. -/
def blockMap (entries : List (Value × Value)) : Nat → List Token → Outcome
  | 0, _ => .error .unexpectedToken
  | fuel + 1, .key :: ts => do
      let (k, ts) ← nodeOr blockMarks true true fuel ts
      let (v, ts) ← valueOr blockMarks true fuel ts
      blockMap (← addEntry entries k v) fuel ts
  | fuel + 1, .value :: ts => do
      let (v, ts) ← valueOr blockMarks true fuel (.value :: ts)
      blockMap (← addEntry entries .null v) fuel ts
  | _, .blockEnd :: ts => .ok (.map entries, ts)
  | _, _ => .error .unexpectedToken

/-- The value behind a colon; null when there is no colon or nothing
behind it. -/
def valueOr (marks : List Token) (inBlock : Bool) : Nat → List Token → Outcome
  | 0, _ => .error .unexpectedToken
  | fuel + 1, .value :: ts => nodeOr marks inBlock inBlock fuel ts
  | _, ts => .ok (.null, ts)

/-- The entries of a list in brackets; all but the first follow a
comma. -/
def flowList (items : List Value) (first : Bool) : Nat → List Token → Outcome
  | 0, _ => .error .unexpectedToken
  | _, .closeBracket :: ts => .ok (.list items, ts)
  | fuel + 1, ts => do
      let ts ← if first then .ok ts else afterComma ts
      match ts with
      | .closeBracket :: ts => return (.list items, ts)
      | .key :: ts =>
          let (k, ts) ← nodeOr [.value, .comma, .closeBracket] false false fuel ts
          let (v, ts) ← valueOr [.comma, .closeBracket] false fuel ts
          flowList (items ++ [.map (← addEntry [] k v)]) false fuel ts
      | ts =>
          let (v, ts) ← node false false fuel ts
          flowList (items ++ [v]) false fuel ts

/-- The entries of a mapping in braces; all but the first follow a
comma. -/
def flowMap (entries : List (Value × Value)) (first : Bool) : Nat → List Token → Outcome
  | 0, _ => .error .unexpectedToken
  | _, .closeBrace :: ts => .ok (.map entries, ts)
  | fuel + 1, ts => do
      let ts ← if first then .ok ts else afterComma ts
      match ts with
      | .closeBrace :: ts => return (.map entries, ts)
      | .key :: ts =>
          let (k, ts) ← nodeOr [.value, .comma, .closeBrace] false false fuel ts
          let (v, ts) ← valueOr [.comma, .closeBrace] false fuel ts
          flowMap (← addEntry entries k v) false fuel ts
      | .value :: ts =>
          let (v, ts) ← valueOr [.comma, .closeBrace] false fuel (.value :: ts)
          flowMap (← addEntry entries .null v) false fuel ts
      | ts =>
          let (k, ts) ← node false false fuel ts
          flowMap (← addEntry entries k .null) false fuel ts

end

/-- Fuel for so many tokens: every value and every entry takes one, and no
more than four readers are entered for it. -/
def fuelFor (ts : List Token) : Nat := 4 * ts.length + 4

/-- The tokens without marks that end a document. -/
def dropEnds (ts : List Token) : List Token := ts.dropWhile (· = .documentEnd)

/-- The value of the first document and what follows it. The mark in front
of it may be left out. -/
def firstDocument (ts : List Token) : Except Fault (Value × List Token) :=
  match ts with
  | .documentStart :: rest =>
      nodeOr [.documentStart, .documentEnd] true false (fuelFor ts) rest
  | _ => node true false (fuelFor ts) ts

/-- The value of a text; nothing at all is null. -/
def parse (t : Text) : Except Fault Value := do
  let ts := dropEnds (← tokens t)
  if ts.isEmpty then return .null
  else
    let (v, rest) ← firstDocument ts
    match dropEnds rest, v.fault? with
    | [], none => return v
    | [], some fault => .error fault
    | .documentStart :: _, _ => .error .secondDocument
    | _, _ => .error .unexpectedToken

/-- A way of reading texts. Settings are loaded through one that is given,
since the language has more than the format here. -/
abbrev Reader := Text → Except Refusal Value

/-- The reader of the format. -/
def read : Reader := fun t => (parse t).mapError Fault.refusal

end KeyHarvest.Yaml
