import FeatureLines.Derive.Syntax

/-!
# Items

The grammar of the items that declarations are derived from: structures, enumerations and unions, with their attributes,
generics, fields and variants. What no declaration depends on is checked for its form and dropped.
-/

namespace FeatureLines.Derive

open Parse

/-- What an attribute says. -/
inductive AttributeForm where
  /-- Its path alone. -/
  | word
  | list (content : List Token)
  /-- A value after an equals sign. -/
  | value

/-- An attribute, named by its path if that is one word. -/
structure Attribute where
  name : Option String
  form : AttributeForm

/-- A field with a name. -/
structure NamedField where
  attributes : List Attribute
  name : String
  type : TypeExpr

/-- A variant of an enumeration. -/
structure Variant where
  attributes : List Attribute
  name : String
  isUnit : Bool

/-- What an item holds. -/
inductive Body where
  | namedFields (fields : List NamedField)
  | unnamedFields
  | noFields
  | variants (variants : List Variant)
  | union

/-- A structure, an enumeration or a union. -/
structure Item where
  name : String
  isGeneric : Bool
  body : Body

/-- Parses items with commas between them, up to the end; `fuel` bounds their number. -/
def readSeparated {α : Type} (p : Parse α) : Nat → Parse (List α)
  | 0 => failure
  | fuel + 1 => do
    if ← atEnd then return []
    let first ← p
    if ← atEnd then return [first]
    let _ ← operator ","
    return first :: (← readSeparated p fuel)

/-- The words of a path without generic arguments, from the first one on. -/
def readMoreWords : Nat → Parse (List String)
  | 0 => failure
  | fuel + 1 => do
    if ← at? "::" then
      let _ ← operator "::"
      let word ← if (← atName) || (← atWords ["super", "self", "Self", "crate"]) then anyWord else failure
      return word :: (← readMoreWords fuel)
    else return []

/-- A path without generic arguments, and its name if it is one word. -/
def readPlainPath : Parse (Option String) := do
  let start ← operator? "::"
  let word ← if (← atName) || (← atWords ["super", "self", "Self", "crate"]) then anyWord else failure
  let rest ← readMoreWords (← enough)
  return if start.isEmpty && rest.isEmpty then some word else none

/-- The inside of an attribute's brackets. -/
def readAttribute : Parse Attribute := do
  let name ← if ← atWord "unsafe" then some <$> anyWord else readPlainPath
  match (← get).head? with
  | some (.group _ content) =>
    let _ ← anyGroup
    return ⟨name, .list content⟩
  | _ =>
    if ← at? "=" then
      let _ ← operator "="
      let _ ← parseExpression
      return ⟨name, .value⟩
    else return ⟨name, .word⟩

/-- The attributes in front of something. -/
def readAttributesUpTo : Nat → Parse (List Attribute)
  | 0 => failure
  | fuel + 1 => do
    if ← at? "#" then
      let _ ← operator "#"
      let content ← group .bracket
      let first ← whole readAttribute content
      return first :: (← readAttributesUpTo fuel)
    else return []

def readAttributes : Parse (List Attribute) := do readAttributesUpTo (← enough)

/-- The visibility of something. Parentheses that do not restrict it belong to what follows. -/
def readVisibility : Parse Unit := do
  if ← atWord "pub" then
    let _ ← anyWord
    match (← get).head? with
    | some (.group .parenthesis [.identifier word]) =>
      if word ∈ ["crate", "self", "super"] then
        let _ ← anyGroup
    | some (.group .parenthesis (.identifier "in" :: path)) =>
      let _ ← anyGroup
      let _ ← whole readPlainPath path
    | _ => pure ()

/-- Takes bounds up to what ends them; there may be none. -/
def boundsUpTo (atStop : Parse Bool) : Nat → Parse Unit
  | 0 => failure
  | fuel + 1 => do
    if ← atStop then return ()
    let _ ← readBound (← enough)
    if ← at? "+" then
      let _ ← operator "+"
      boundsUpTo atStop fuel

/-- A generic parameter: a lifetime, a type or a constant. -/
def readGeneric : Parse Unit := do
  let _ ← readAttributes
  let atStop : Parse Bool := do return (← at? ",") || (← at? ">") || (← at? "=")
  if ← atLifetime then
    let _ ← lifetime
    if ← at? ":" then
      let _ ← operator ":"
      boundsUpTo atStop (← enough)
  else if ← atWord "const" then
    let _ ← anyWord
    let _ ← name
    let _ ← operator ":"
    let _ ← parseType
    if ← at? "=" then
      let _ ← operator "="
      if ← atLiteral then let _ ← literal
      else if ← atGroup .brace then let _ ← anyGroup
      else let _ ← name
  else if ← atWord "_" then let _ ← anyWord
  else
    let _ ← name
    if ← at? ":" then
      let _ ← operator ":"
      boundsUpTo atStop (← enough)
    if ← at? "=" then
      let _ ← operator "="
      let _ ← parseType

/-- Generic parameters up to the closing bracket, and whether there are any. -/
def readGenericsUpTo : Nat → Parse Bool
  | 0 => failure
  | fuel + 1 => do
    if ← at? ">" then return false
    readGeneric
    if ← at? ">" then return true
    let _ ← operator ","
    let _ ← readGenericsUpTo fuel
    return true

/-- Generic parameters in angle brackets, if there are brackets; whether there are parameters. -/
def readGenerics : Parse Bool := do
  if ← at? "<" then
    let _ ← operator "<"
    let isGeneric ← readGenericsUpTo (← enough)
    let _ ← operator ">"
    return isGeneric
  else return false

def atConditionEnd : Parse Bool := do
  return (← atEnd) || (← atGroup .brace) || (← at? ",") || (← at? ";") || (← at? ":") && !(← at? "::") || (← at? "=")

/-- Conditions on types, with commas between them. -/
def readConditionsUpTo : Nat → Parse Unit
  | 0 => failure
  | fuel + 1 => do
    if ← atConditionEnd then return ()
    if (← atLifetime) && (← ahead 2 (at? ":")) then let _ ← lifetime
    else
      if ← atWord "for" then let _ ← readBinder (← enough)
      let _ ← parseType
    let _ ← operator ":"
    boundsUpTo atConditionEnd (← enough)
    if ← at? "," then
      let _ ← operator ","
      readConditionsUpTo fuel

/-- The conditions of an item, if it has any. -/
def readConditions : Parse Bool := do
  if ← atWord "where" then
    let _ ← anyWord
    readConditionsUpTo (← enough)
    return true
  else return false

def readNamedField : Parse NamedField := do
  let attributes ← readAttributes
  readVisibility
  let name ← if ← atWord "_" then anyWord else name
  let _ ← operator ":"
  return ⟨attributes, name, ← parseType⟩

/-- A field without a name. -/
def readUnnamedField : Parse Unit := do
  let _ ← readAttributes
  readVisibility
  let _ ← parseType

def readNamedFields : Parse (List NamedField) := do
  let content ← group .brace
  whole (readSeparated readNamedField (Token.weightOf content + 1)) content

def readUnnamedFields : Parse Unit := do
  let content ← group .parenthesis
  let _ ← whole (readSeparated readUnnamedField (Token.weightOf content + 1)) content

/-- A variant with its fields and its value, if it has any. -/
def readVariant : Parse Variant := do
  let attributes ← readAttributes
  readVisibility
  let name ← name
  let isUnit ←
    if ← atGroup .brace then do
      let _ ← readNamedFields
      pure false
    else if ← atGroup .parenthesis then do
      readUnnamedFields
      pure false
    else pure true
  if ← at? "=" then
    let _ ← operator "="
    let _ ← parseExpression
  return ⟨attributes, name, isUnit⟩

/-- What follows the generics of a structure. -/
def readStructure : Parse Body := do
  let hasConditions ← readConditions
  if !hasConditions && (← atGroup .parenthesis) then
    readUnnamedFields
    let _ ← readConditions
    let _ ← operator ";"
    return .unnamedFields
  else if ← atGroup .brace then return .namedFields (← readNamedFields)
  else
    let _ ← operator ";"
    return .noFields

/-- What follows the generics of an enumeration. -/
def readEnumeration : Parse Body := do
  let _ ← readConditions
  let content ← group .brace
  return .variants (← whole (readSeparated readVariant (Token.weightOf content + 1)) content)

/-- What follows the generics of a union. -/
def readUnion : Parse Body := do
  let _ ← readConditions
  let _ ← readNamedFields
  return .union

def readItem : Parse Item := do
  let _ ← readAttributes
  readVisibility
  let kind ← anyWord
  let body ← match kind with
    | "struct" => pure readStructure
    | "enum" => pure readEnumeration
    | "union" => pure readUnion
    | _ => failure
  let name ← name
  let isGeneric ← readGenerics
  return ⟨name, isGeneric, ← body⟩

def Item.read? (source : String) : Option Item := do
  let tokens ← Token.readAll? source
  let (item, rest) ← readItem.run tokens
  if rest.isEmpty then some item else none

end FeatureLines.Derive
