import FeatureLines.Derive.Item
import FeatureLines.Derive.Literal
import FeatureLines.Number.Integer
import FeatureLines.Schema.Feature

/-!
# Attributes of fields and variants

What the attributes of a field or a variant say. Settings are read in the order in which they are written, and
the first fault is the error; a setting that comes again replaces the one before. The roles of a field are compared when
all of its attributes are read.
-/

namespace FeatureLines.Derive

open FeatureLines.Number FeatureLines.Text Parse

/-- Why no declaration can be derived. -/
inductive DeriveError where
  /-- The source, or an attribute in it, is not of the form that is read. -/
  | malformed
  | notStructure
  | genericStructure
  | unnamedFields
  | notEnumeration
  | genericEnumeration
  | variantFields
  /-- A group that would break the line structure. -/
  | groupCharacter
  /-- An order that is out of range. -/
  | order (cause : IntegerError)
  | unknownStrings
  | unknownSetting
  | unknownVariantSetting
  /-- Two of the roles that exclude each other. -/
  | roles
deriving DecidableEq, Repr

/-- The wording of an error; a malformed source has none. -/
def DeriveError.message? : DeriveError → Option String
  | malformed => none
  | notStructure => some "FeatureExample only supports structs"
  | genericStructure => some "FeatureExample does not support generic structs"
  | unnamedFields => some "FeatureExample requires named fields"
  | notEnumeration => some "FeatureEnum only supports enums"
  | genericEnumeration => some "FeatureEnum does not support generic enums"
  | variantFields => some "FeatureEnum variants must be unit variants"
  | groupCharacter => some "group cannot be whitespace, `|` or `:`"
  | order cause => some cause.message
  | unknownStrings => some "Unknown string processing. Supported: split, escape, escape_and_include_name"
  | unknownSetting =>
    some ("Unknown featwire attribute key. Supported: name, namespace, group, order, enumerize, anchor, dictify, " ++
      "strings, with, label, action_dependent, skip")
  | unknownVariantSetting => some "Unknown featwire variant attribute. Supported: name"
  | roles => some "`label`, `action_dependent` and `skip` are mutually exclusive"

/-- What is said of a field. Literals are kept as they are written. -/
structure FieldSettings where
  isAnnotated : Bool := false
  name : Option String := none
  namespaceName : Option String := none
  group : Option String := none
  order : Option (List Token) := none
  enumerize : Bool := false
  anchor : Bool := false
  dictify : Bool := false
  strings : Option StringProcessing := none
  marshaller : Option (List Token) := none
  isLabel : Bool := false
  isActions : Bool := false
  isSkipped : Bool := false

namespace FieldSettings

/-- No two of the roles that exclude each other. -/
def hasOneRole (s : FieldSettings) : Bool := ([s.isLabel, s.isActions, s.isSkipped].filter id).length ≤ 1

end FieldSettings

/-- Takes settings from the front, or says what is wrong with them. -/
abbrev ParseSettings := StateT (List Token) (Except DeriveError)

/-- A parser that fails with `malformed`. -/
def strict {α : Type} (p : Parse α) : ParseSettings α := fun tokens =>
  match p.run tokens with
  | some result => .ok result
  | none => .error .malformed

/-- The key of a setting, if it is one word. Any word may stand in a key. -/
def readKey : Parse (Option String) := do
  let start ← operator? "::"
  let word ← anyWord
  if ← at? "::" then
    let _ ← readKeyWords (← enough)
    return none
  return if start.isEmpty then some word else none
where
  /-- The words behind the first one of a key. -/
  readKeyWords : Nat → Parse Unit
    | 0 => failure
    | fuel + 1 => do
      if ← at? "::" then
        let _ ← operator "::"
        let _ ← anyWord
        readKeyWords fuel

/-- Takes the equals sign and the literal behind it. -/
def readLiteral : Parse (List Token) := do
  let _ ← operator "="
  literal

/-- Takes a literal of one kind and gives its text with its value. -/
def readValue {α : Type} (value? : String → Option α) : Parse (String × α) := do
  let [.literal text] ← readLiteral | failure
  return (text, ← value? text)

/-- Takes a flag, which is set when it stands alone. -/
def readFlag : Parse Bool := do
  if ← at? "=" then
    match ← readLiteral with
    | [.identifier text] => return text = "true"
    | _ => failure
  else return true

/-- Takes an integer and gives its tokens with its value. -/
def readInteger : Parse (List Token × Int) := do
  match ← readLiteral with
  | [.literal text] => do
    return ([.literal text], .ofNat (← naturalValue? text))
  | [sign, .literal text] => do
    return ([sign, .literal text], -(.ofNat (← naturalValue? text)))
  | _ => failure

/-- An order is an integer of 32 bits. -/
def checkOrder (i : Int) : Except DeriveError Unit :=
  let bound : Nat := 2 ^ (31 : Nat)
  if bound ≤ i then .error (.order .tooLarge) else if i < -bound then .error (.order .tooSmall) else .ok ()

/-- Takes what follows the key of a field's setting. -/
def readFieldSetting (s : FieldSettings) (key : Option String) : ParseSettings FieldSettings := do
  match key with
  | some "name" => return { s with name := some (← strict (readValue stringValue?)).2 }
  | some "namespace" => return { s with namespaceName := some (← strict (readValue stringValue?)).1 }
  | some "group" =>
    let (text, c) ← strict (readValue characterValue?)
    if needsEscape c then throw .groupCharacter
    return { s with group := some text }
  | some "order" =>
    let (tokens, i) ← strict readInteger
    checkOrder i
    return { s with order := some tokens }
  | some "enumerize" => return { s with enumerize := ← strict readFlag }
  | some "anchor" => return { s with anchor := ← strict readFlag }
  | some "dictify" => return { s with dictify := ← strict readFlag }
  | some "strings" =>
    let (_, text) ← strict (readValue stringValue?)
    match [StringProcessing.split, .escape, .escapeAndIncludeName].find? (·.name = text) with
    | some strings => return { s with strings := some strings }
    | none => throw .unknownStrings
  | some "with" =>
    let _ ← strict (operator "=")
    return { s with marshaller := some (← strict parsePath) }
  | some "label" => return { s with isLabel := true }
  | some "action_dependent" => return { s with isActions := true }
  | some "skip" => return { s with isSkipped := true }
  | _ => throw .unknownSetting

/-- Takes what follows the key of a variant's setting. -/
def readVariantSetting (_ : Option String) (key : Option String) : ParseSettings (Option String) := do
  match key with
  | some "name" => return some (← strict (readValue stringValue?)).2
  | _ => throw .unknownVariantSetting

/-- Takes settings with commas between them; `read` takes what follows a key. -/
def readSettings {σ : Type} (read : σ → Option String → ParseSettings σ) (s : σ) : Nat → ParseSettings σ
  | 0 => throw .malformed
  | fuel + 1 => do
    if ← strict atEnd then return s
    let s ← read s (← strict readKey)
    if ← strict atEnd then return s
    let _ ← strict (operator ",")
    readSettings read s fuel

def settingsOf {σ : Type} (read : σ → Option String → ParseSettings σ) (s : σ) (content : List Token) :
    Except DeriveError σ :=
  (readSettings read s (Token.weightOf content + 1)).run' content

/-- The attributes that say something of features. -/
def Attribute.isOurs (a : Attribute) : Bool := a.name = some "featwire"

/-- Goes through the attributes of a field. One without a list only marks the field as a feature. -/
def FieldSettings.readAll (s : FieldSettings) : List Attribute → Except DeriveError FieldSettings
  | [] => .ok s
  | a :: rest => do
    let s := { s with isAnnotated := true }
    match a.form with
    | .word => readAll s rest
    | .list content => readAll (← settingsOf readFieldSetting s content) rest
    | .value => .error .malformed

def FieldSettings.ofAttributes (attributes : List Attribute) : Except DeriveError FieldSettings := do
  let s ← FieldSettings.readAll {} (attributes.filter Attribute.isOurs)
  if s.hasOneRole then return s else .error .roles

/-- Goes through the attributes of a variant. -/
def readVariantName (name : Option String) : List Attribute → Except DeriveError (Option String)
  | [] => .ok name
  | a :: rest =>
    match a.form with
    | .list content => do readVariantName (← settingsOf readVariantSetting name content) rest
    | _ => .error .malformed

def variantName? (attributes : List Attribute) : Except DeriveError (Option String) :=
  readVariantName none (attributes.filter Attribute.isOurs)

end FeatureLines.Derive
