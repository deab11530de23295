/-
What is wrong with a document that is no document, and with a scalar that
looks like a number or a point in time and denotes none. The first is for
the author of the document to mend; the second is not foreseen, and neither
is a construct of the language that is outside the format.
-/
import KeyHarvest.Number.Limit
import KeyHarvest.Text.Shown

namespace KeyHarvest.Yaml

/-- Why a scalar denotes nothing, though it has the shape of a value. -/
inductive Impossible where
  | year
  | month
  | day
  | hour
  | minute
  | second
  | oversized (digits : Nat)
  | noDigits (base : Nat)
  | noNumber (text : Text)
  deriving DecidableEq, Repr

/-- The wording for a scalar that denotes nothing. -/
def Impossible.message : Impossible → Text
  | .year => "year 0 is out of range"
  | .month => "month must be in 1..12"
  | .day => "day is out of range for month"
  | .hour => "hour must be in 0..23"
  | .minute => "minute must be in 0..59"
  | .second => "second must be in 0..59"
  | .oversized digits => oversizedMessage digits
  | .noDigits base => "invalid literal for int() with base " ++ Text.ofNat base ++ ": ''"
  | .noNumber text => "could not convert string to float: " ++ Text.shown text

/-- The faults of a document. -/
inductive Fault where
  | control
  | openQuotation
  | badEscape
  | badHeader
  | raggedBlock
  | strayCharacter
  | misplacedEntry
  | misplacedKey
  | misplacedValue
  | missingColon
  | unexpectedToken
  | secondDocument
  | repeatedKey
  | mappingAsKey
  | unresolvable
  | unsupported
  | impossible (reason : Impossible)
  deriving DecidableEq, Repr

/-- Whether a fault is one that the author of the document can mend. -/
def Fault.isForeseen : Fault → Bool
  | .unsupported | .impossible _ => false
  | _ => true

/-- The wording of a fault. -/
def Fault.message : Fault → Text
  | .control => "a control character is not allowed"
  | .openQuotation => "a quotation is not closed"
  | .badEscape => "an escape is not known"
  | .badHeader => "the header of a block text is malformed"
  | .raggedBlock => "a block text begins with a line of blanks that is too short"
  | .strayCharacter => "a character begins nothing"
  | .misplacedEntry => "a list entry is not allowed here"
  | .misplacedKey => "a mapping key is not allowed here"
  | .misplacedValue => "a mapping value is not allowed here"
  | .missingColon => "a key is not followed by a colon"
  | .unexpectedToken => "the structure is malformed"
  | .secondDocument => "there is more than one document"
  | .repeatedKey => "a key is repeated"
  | .mappingAsKey => "a mapping is no key"
  | .unresolvable => "a scalar has no value"
  | .unsupported => "anchors, aliases, tags, directives and merge keys are outside the format"
  | .impossible reason => reason.message

/-- Why a text has no value: it is malformed, which its author can mend, or
there is something wrong that nobody has foreseen. -/
inductive Refusal where
  | malformed (message : Text)
  | unforeseen (message : Text)
  deriving DecidableEq, Repr

/-- What a fault comes to for the reader of a text. -/
def Fault.refusal (fault : Fault) : Refusal :=
  if fault.isForeseen then .malformed fault.message else .unforeseen fault.message

end KeyHarvest.Yaml
