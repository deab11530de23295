/-
Component files: scripts that may hold the template of a component in the
call of its `@Component` decorator. The template is the value of the first
such `template` property, between its quotes and with escapes as written;
a source without one has the empty template.
-/
import KeyHarvest.Files.Extension
import KeyHarvest.Script.Decorator
import KeyHarvest.Text.Lines

namespace KeyHarvest.Script

/-- The extensions of scripts. -/
def scriptExtensions : List Text := [['t', 's'], ['j', 's'], ['t', 's', 'x'], ['j', 's', 'x']]

/-- Whether a path is that of a script. -/
def isComponentFile (path : Text) : Bool := scriptExtensions.contains (extensionOf path)

/-- The text of a span. -/
def Span.text (source : Text) (s : Span) : Text := Text.slice source s.start s.stop

/-- Whether a property is the template of a component. Quotes around the
key do not count. -/
def isTemplate (source : Text) (p : Property) : Bool :=
  Text.afterLast '.' (p.decorator.text source) = Text.ofString "Component"
    && Text.trimWhile (fun c => c = '\'' || c = '"') (p.key.text source)
      = Text.ofString "template"

/-- The extensions of scripts that may hold elements of markup. -/
def markupExtensions : List Text := [['t', 's', 'x'], ['j', 's', 'x']]

/-- The dialect of the scripts with an extension. -/
def Dialect.ofExtension (extension : Text) : Dialect :=
  if markupExtensions.contains extension then .markup else .plain

/-- The inline template of a source. The search for properties is there for
every dialect, so no error is passed over. -/
def inlineTemplate (d : Dialect) (source : Text) : Text :=
  match (query d propertyQuery source).toOption.bind (List.find? (isTemplate source)) with
  | some p => ((p.value.text source).drop 1).dropLast
  | none => []

end KeyHarvest.Script
