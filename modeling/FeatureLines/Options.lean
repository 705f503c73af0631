import FeatureLines.Error
import FeatureLines.Json.Decode
import FeatureLines.Json.Reader
import FeatureLines.Number.Layout

/-!
# Options

The settings of a serializer, and how they are read from JSON. An object may leave members out and may hold members of
other names; a list gives the settings in their order and may end early. A known member must not come twice.
-/

namespace FeatureLines

open Number Text

/-- How weights are written on a text line. -/
inductive FloatFormat where
  /-- The shortest decimal that reads back. -/
  | compact
  /-- Nine significant digits and an exponent. -/
  | scientific
deriving DecidableEq, Repr

namespace FloatFormat

def text : FloatFormat → Single → String
  | compact, weight => weight.positional
  | scientific, weight => weight.scientific

/-- The name of a format in options. -/
def name : FloatFormat → String
  | compact => "compact"
  | scientific => "scientific"

/-- The name of a format in descriptions. -/
def title : FloatFormat → String
  | compact => "Compact"
  | scientific => "Scientific"

def ofName? (name : String) : Option FloatFormat :=
  if name = "compact" then some compact else if name = "scientific" then some scientific else none

end FloatFormat

/-- Which forms of an example are made. -/
inductive OutputKind where
  | native
  | nativeAndText
deriving DecidableEq, Repr

namespace OutputKind

def title : OutputKind → String
  | native => "Native"
  | nativeAndText => "NativeAndText"

def ofTitle? (title : String) : Option OutputKind :=
  if title = "Native" then some native else if title = "NativeAndText" then some nativeAndText else none

end OutputKind

/-- The settings of a serializer. -/
structure Options where
  /-- Make the text form as well. -/
  text : Bool := false
  /-- The greatest number of cached results, when there is one. -/
  cacheMaxEntries : Option Nat := none
  /-- Make the text of every value once only. -/
  dictify : Bool := false
  /-- Warn of finite weights that become infinite. -/
  precisionWarnings : Bool := false
  /-- The format of weights, when it is not the one in force everywhere. -/
  floatFormat : Option FloatFormat := none
deriving DecidableEq, Repr

namespace Options

def outputKind (o : Options) : OutputKind := if o.text then .nativeAndText else .native

/-- A cache must have room for an entry. -/
def validate (o : Options) : Except ConfigError Unit :=
  if o.cacheMaxEntries = some 0 then .error (.invalidCacheSize 0) else .ok ()

/-- A bound: a natural number that fits a machine word. -/
def readBound (value : Json) : Option Nat := value.nat?.filter (· < 2 ^ (64 : Nat))

/-- A format by its name, or as an object of the name with nothing in it. -/
def readFormat : Json → Option FloatFormat
  | .string name => FloatFormat.ofName? name
  | .object [(name, .null)] => FloatFormat.ofName? name
  | _ => none

/-- The names of the settings, in order. -/
def names : List String := ["text", "cache_max_entries", "dictify", "precision_warnings", "float_format"]

/-- Sets the setting of a name; a member of another name changes nothing. -/
def set (o : Options) (name : String) (value : Json) : Option Options :=
  if name = "text" then value.bool?.map fun text => { o with text }
  else if name = "cache_max_entries" then
    (value.optional? readBound).map fun cacheMaxEntries => { o with cacheMaxEntries }
  else if name = "dictify" then value.bool?.map fun dictify => { o with dictify }
  else if name = "precision_warnings" then value.bool?.map fun precisionWarnings => { o with precisionWarnings }
  else if name = "float_format" then (value.optional? readFormat).map fun floatFormat => { o with floatFormat }
  else some o

/-- Sets settings one after the other; `seen` holds the known names that came before. -/
def setAll (seen : List String) (o : Options) : List (String × Json) → Option Options
  | [] => some o
  | (name, value) :: rest =>
    if name ∈ seen then none
    else (o.set name value).bind fun o => setAll (if name ∈ names then name :: seen else seen) o rest

/-- Reads options from a JSON value. -/
def ofJson? : Json → Option Options
  | .object members => setAll [] {} members
  | .array items => if names.length < items.length then none else setAll [] {} (names.zip items)
  | _ => none

def ofText? (text : String) : Option Options := (Json.read? text).bind ofJson?

def describe (o : Options) : String :=
  let flag (b : Bool) : String := if b then "true" else "false"
  record "SerializerOptions"
    [("text", flag o.text), ("cache_max_entries", optional (o.cacheMaxEntries.map toString)),
      ("dictify", flag o.dictify), ("precision_warnings", flag o.precisionWarnings),
      ("float_format", optional (o.floatFormat.map FloatFormat.title))] false

end Options

end FeatureLines
