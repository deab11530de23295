/-
The longest integers. A decimal numeral of more digits than the limit is
not read at all, wherever it stands; that is no refusal of the text around
it but stops whoever reads it.
-/
import KeyHarvest.Text.Basic

namespace KeyHarvest

/-- The most digits that an integer literal may have. -/
def maxIntegerDigits : Nat := 4300

/-- The wording for an integer literal of too many digits. -/
def oversizedMessage (digits : Nat) : Text :=
  "Exceeds the limit (" ++ Text.ofNat maxIntegerDigits
    ++ " digits) for integer string conversion: value has " ++ Text.ofNat digits
    ++ " digits; use sys.set_int_max_str_digits() to increase the limit"

end KeyHarvest
