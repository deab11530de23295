/-
Why a template is refused. A fault of the markup or of a binding has a
place; a fault in an interpolation of running text is reported with the
whole text instead. The path of the template stands in front of every
message.
-/
import KeyHarvest.Expr.Error
import KeyHarvest.Text.Lines

namespace KeyHarvest.Template

/-- What is wrong with a template. -/
inductive Fault where
  | strayEndTag (name : Text)
  | missing (token : Text)
  | unexpected (snippet : Text)
  | unclosed (name : Text)
  | binding (fault : ExprFault) (name value : Text)
  | interpolation (fault : ExprFault) (value : Text)
  deriving DecidableEq, Repr

namespace Fault

/-- The wording of a fault. -/
def message : Fault → Text
  | .strayEndTag name => "Unexpected closing tag '" ++ name ++ "'"
  | .missing token => "Missing '" ++ token ++ "'"
  | .unexpected snippet => "Unexpected '" ++ snippet ++ "'"
  | .unclosed name => "Unclosed element '" ++ name ++ "'"
  | .binding fault name value =>
      fault.message ++ " in " ++ name ++ "=\"" ++ value ++ "\""
  | .interpolation fault value => fault.message ++ " in interpolation '" ++ value ++ "'"

end Fault

/-- The refusal of a template. A numeral of too many digits is passed on
as such. -/
inductive Error where
  | malformed (fault : Fault) (path : Text) (place : Option Place)
  | oversized (digits : Nat)
  deriving DecidableEq, Repr

namespace Error

/-- The path as messages show it. -/
def shownPath (path : Text) : Text := if path.isEmpty then "<template>" else path

/-- The full text of a refusal. -/
def message : Error → Text
  | .malformed fault path none => shownPath path ++ ": " ++ fault.message
  | .malformed fault path (some p) =>
      shownPath path ++ ":" ++ Text.ofNat p.line ++ ":" ++ Text.ofNat p.column ++ ": "
        ++ fault.message
  | .oversized digits => oversizedMessage digits

end Error

end KeyHarvest.Template
