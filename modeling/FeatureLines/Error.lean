import FeatureLines.Number.Decimal
import FeatureLines.Number.Integer
import FeatureLines.Text.Quoted

/-!
# Failures

Everything that can go wrong, by cause, and the wording of each cause. A schema that cannot be compiled and options that
cannot be used are found before anything is serialized; while serializing only labels fail; reading lines back fails on
labels and weights.
-/

namespace FeatureLines

open Number Text

/-- Why a piece of text is not the number it should be. -/
inductive NumberError where
  | decimal (cause : DecimalError)
  | integer (cause : IntegerError)
deriving DecidableEq, Repr

def NumberError.message : NumberError → String
  | decimal cause => cause.message
  | integer cause => cause.message

/-- Why a label is refused: its text is no label, or it does not fit the lines it is meant for. -/
inductive LabelError where
  /-- No text at all. -/
  | missing
  /-- A text with colons that has not exactly three parts. -/
  | parts (text : String)
  /-- A part of a label that is not the number it should be. -/
  | number (part text : String) (cause : NumberError)
  /-- More than a label and a weight. -/
  | trailing (text : String)
  /-- A label for an action of an example without actions. -/
  | noActions (type : String)
  /-- A label for the whole of an example with actions. -/
  | hasActions (type : String)
  /-- A label for an action past the last one. -/
  | noSuchAction (index count : Nat) (type : String)
deriving DecidableEq, Repr

def LabelError.message : LabelError → String
  | missing => "empty label"
  | parts text => s!"expected `action:cost:probability`, got `{text}`"
  | number part text cause => s!"`{part}` in label `{text}`: {cause.message}"
  | trailing text => s!"trailing tokens in label `{text}`"
  | noActions type => s!"`{type}` has no action-dependent member to label"
  | hasActions type => s!"`{type}` is multi-line; label a candidate by index instead"
  | noSuchAction index count type => s!"label index {index} out of range for {count} candidates in `{type}`"

/-- Why a declared record type cannot be compiled. -/
inductive SchemaError where
  /-- Nothing turns the values of a feature into tokens. -/
  | unresolvedMarshaller (type member valueType : String)
  /-- A dense namespace holds more than one feature. -/
  | multipleDenseFeatures (type namespaceName : String) (members : List String)
  /-- A namespace holds both dense and other features. -/
  | mixedNamespace (type namespaceName : String)
  | multipleLabels (type : String) (members : List String)
  /-- A candidate type contributes no namespace. -/
  | noFeatures (type : String)
  | multipleActionDependent (type : String) (members : List String)
  /-- A type is a part of itself. -/
  | recursiveSchema (type member : String)
  | nestedActionDependent (type candidate : String)
deriving DecidableEq, Repr

/-- A list of member paths in a message. -/
def memberList (members : List String) : String := bracketed (members.map quoted)

def SchemaError.message : SchemaError → String
  | unresolvedMarshaller type member valueType =>
    s!"unable to resolve marshal method for `{member}` (type `{valueType}`) in `{type}`"
  | multipleDenseFeatures type name members =>
    s!"only one dense vector per namespace: `{name}` in `{type}` holds {memberList members}"
  | mixedNamespace type name => s!"namespace `{name}` in `{type}` mixes dense and sparse features"
  | multipleLabels type members => s!"`{type}` declares more than one label member: {memberList members}"
  | noFeatures type => s!"`{type}` declares no features"
  | multipleActionDependent type members =>
    s!"`{type}` declares more than one action-dependent member: {memberList members}"
  | recursiveSchema type member => s!"`{type}` contains itself through member `{member}`"
  | nestedActionDependent type candidate =>
    s!"candidate type `{candidate}` of `{type}` nests another action-dependent member"

/-- Why options cannot be used. -/
inductive ConfigError where
  | invalidCacheSize (size : Nat)
deriving DecidableEq, Repr

def ConfigError.message : ConfigError → String
  | invalidCacheSize size => s!"cache size must be positive, got {size}"

/-- A failure of the library. -/
inductive Error where
  | schema (cause : SchemaError)
  | config (cause : ConfigError)
  | label (cause : LabelError)
  /-- A weight in a text line that is no number. -/
  | parse (token : String) (cause : DecimalError)
  /-- An example without text cannot be validated. -/
  | noText
  /-- A computation handed in by a caller gave up. -/
  | computation (reason : String)
deriving DecidableEq, Repr

def Error.message : Error → String
  | schema cause => "Schema Error: " ++ cause.message
  | config cause => "Config Error: " ++ cause.message
  | label cause => "Label Error: " ++ cause.message
  | parse token cause => s!"Parse Error: bad weight in `{token}`: {cause.message}"
  | noText => "Validation Error: example was serialized without its text form"
  | computation reason => "Internal Logic Error: " ++ reason

end FeatureLines
