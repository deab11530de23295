/-
The settings of an extraction: which elements are marked and where their
keys are, which quoted keys count, and which files are searched. Settings
come as a value with at most six fields; a field that is left out has its
default, and a value that holds nothing at all is all defaults.

A field of texts may be given as one text alone. Extensions are compared
in lower case and with their dot, so they are brought to that form here.
-/
import KeyHarvest.Files.Path
import KeyHarvest.Keys.Marked
import KeyHarvest.Keys.Quoted
import KeyHarvest.Yaml.Value

namespace KeyHarvest

/-- The settings of an extraction. -/
structure Config where
  tagNames : List Text
  keyAttribute : Text
  keySpace : Text
  excludedMarkers : List Text
  extensions : List Text
  exclude : List Text
  deriving DecidableEq, Repr

namespace Config

/-- The settings when nothing is said. -/
def defaults : Config where
  tagNames := ["translate", "public-translate"]
  keyAttribute := "key"
  keySpace := "dfa"
  excludedMarkers := ["|http", "|not-set"]
  extensions := [".html", ".ts"]
  exclude := []

-- ============================================================ faults

/-- What keeps unknown keys from being named in order: the first of them
is no text but of another kind, or between two of these kinds there is no
order. -/
inductive Hindrance where
  | noText (kind : Text)
  | unordered (left right : Text)
  deriving DecidableEq, Repr

/-- The wording of a hindrance. Dates and points in time are told apart
though the one kind is a case of the other. -/
def Hindrance.message : Hindrance → Text
  | .noText kind => "sequence item 0: expected str instance, " ++ kind ++ " found"
  | .unordered left right =>
      let moment := (Yaml.Value.time false []).kind
      let date := (Yaml.Value.time true []).kind
      if left = moment ∧ right = date ∨ left = date ∧ right = moment then
        "can't compare " ++ moment ++ " to " ++ date
      else
        "'<' not supported between instances of '" ++ left ++ "' and '" ++ right ++ "'"

/-- Why settings are refused. Keys that are no texts cannot even be named
in a message; what hinders it is reported instead. -/
inductive Fault where
  | notMapping
  | unknownKeys (names : List Text)
  | unnamedKey (hindrance : Hindrance)
  | notTexts (field : Text)
  | notText (field : Text)
  deriving DecidableEq, Repr

/-- The name of the settings in messages. -/
def fileName : Text := "tkx.yaml"

/-- The wording of a fault. -/
def Fault.message : Fault → Text
  | .notMapping => fileName ++ ": top level must be a mapping"
  | .unknownKeys names => fileName ++ ": unknown key(s): " ++ Text.join ", " names
  | .unnamedKey hindrance => hindrance.message
  | .notTexts field => fileName ++ "." ++ field ++ ": expected a list of strings"
  | .notText field => fileName ++ "." ++ field ++ ": expected a non-empty string"

-- ============================================================ fields

/-- The names of the fields. -/
def fieldNames : List Text :=
  ["tag_names", "key_attribute", "key_prefix", "excluded_markers", "extensions", "exclude"]

/-- A mapping as a list of entries. -/
abbrev Entries := List (Yaml.Value × Yaml.Value)

/-- The keys of a mapping that are not fields. -/
def strangeKeys (entries : Entries) : List Yaml.Value :=
  (entries.map Prod.fst).filter fun k => !(k.text?.any fieldNames.contains)

/-- A mapping must have no other keys than fields. The names of those it
has are reported in order, so the keys are sorted before it shows that they
are names. Between which two of several keys no order is found depends on
how they are stored; here the first that have none are taken. -/
def checkKeys (entries : Entries) : Except Fault Unit :=
  match strangeKeys entries with
  | [] => .ok ()
  | k :: ks =>
      match Yaml.Value.clashAmong? (k :: ks), (k :: ks).mapM Yaml.Value.text? with
      | some (left, right), _ => .error (.unnamedKey (.unordered left right))
      | none, some names => .error (.unknownKeys (names.mergeSort Text.le))
      | none, none => .error (.unnamedKey (.noText (Yaml.Value.first k ks).kind))

/-- A field of texts. -/
def textsField (entries : Entries) (name : Text) (default : List Text) :
    Except Fault (List Text) :=
  match Yaml.Value.lookup? name entries with
  | none => .ok default
  | some v =>
      match v.texts? with
      | some ts => .ok ts
      | none => .error (.notTexts name)

/-- A field with one text, which is not empty. -/
def textField (entries : Entries) (name default : Text) : Except Fault Text :=
  match Yaml.Value.lookup? name entries with
  | none => .ok default
  | some v =>
      match v.text? with
      | some (c :: cs) => .ok (c :: cs)
      | _ => .error (.notText name)

/-- An extension in lower case and with its dot. -/
def normalExtension (e : Text) : Text :=
  if Text.starts '.' e then Text.lower e else "." ++ Text.lower e

/-- The settings of a mapping. The first field that does not fit is
reported, extensions before all others. -/
def ofEntries (entries : Entries) : Except Fault Config := do
  checkKeys entries
  let extensions ← textsField entries "extensions" defaults.extensions
  return {
    tagNames := ← textsField entries "tag_names" defaults.tagNames
    keyAttribute := ← textField entries "key_attribute" defaults.keyAttribute
    keySpace := ← textField entries "key_prefix" defaults.keySpace
    excludedMarkers := ← textsField entries "excluded_markers" defaults.excludedMarkers
    extensions := extensions.map normalExtension
    exclude := ← textsField entries "exclude" defaults.exclude }

/-- The settings of a value. -/
def ofValue (v : Yaml.Value) : Except Fault Config :=
  if v.isVoid then .ok defaults
  else
    match v with
    | .map entries => ofEntries entries
    | _ => .error .notMapping

/-- The search for marked elements that settings ask for. -/
def marked (c : Config) : MarkedKeys := ⟨c.tagNames, c.keyAttribute⟩

/-- The search for quoted keys that settings ask for. -/
def quoted (c : Config) : QuotedKeys := ⟨c.keySpace, c.excludedMarkers⟩

end Config

end KeyHarvest
