import FeatureLines.Derive.Attributes

/-!
# Deriving declarations

From a structure the declaration of its fields is derived, and from an enumeration its table of variants. A declaration
is a list of calls, one for each field that is not skipped, in the order of the fields; each call tells how the value of
the field is reached, with one `Option` and then one `Box` around it taken off. The code of a declaration is the texts of
its tokens.
-/

namespace FeatureLines.Derive

open FeatureLines.Text

/-! ## Reaching a field -/

namespace TypeExpr

/-- The type inside a wrapper: the last segment of a path has the wrapper's name and one argument, which is a type. -/
def unwrap? (wrapper : String) : TypeExpr → Option TypeExpr
  | path _ form last [some inner] => if last = wrapper && !form.isQualified then some inner else none
  | _ => none

/-- The type is the path `str`. -/
def isStr : TypeExpr → Bool
  | path _ form last _ => last = "str" && form.isSingle && form.isPlain && !form.isQualified
  | other _ => false

def isPath : TypeExpr → Bool
  | path .. => true
  | other _ => false

/-- The type inside a box. What has no size stays boxed. -/
def unbox? (type : TypeExpr) : Option TypeExpr :=
  (type.unwrap? "Box").filter fun inner => inner.isPath && !inner.isStr

end TypeExpr

/-- How a reference to the value is got from a field. -/
inductive Getter where
  /-- The field itself. -/
  | reference
  | unboxed
  /-- What is there, if anything is. -/
  | present
  /-- What is in the box, if there is one. -/
  | presentUnboxed
deriving DecidableEq, Repr

/-- The way to the value of a field. -/
structure Access where
  field : String
  /-- The type of the value, without its wrappers. -/
  type : TypeExpr
  getter : Getter

namespace Access

/-- The way to the value of a field of a type. -/
def of (field : String) (type : TypeExpr) : Access :=
  match type.unwrap? "Option" with
  | some inner =>
    match inner.unbox? with
    | some boxed => ⟨field, boxed, .presentUnboxed⟩
    | none => ⟨field, inner, .present⟩
  | none =>
    match type.unbox? with
    | some boxed => ⟨field, boxed, .unboxed⟩
    | none => ⟨field, type, .reference⟩

/-- The value may be missing. -/
def isOptional (a : Access) : Bool := a.getter = .present || a.getter = .presentUnboxed

end Access

/-! ## Declarations -/

/-- What a declaration says of a field. -/
inductive Call where
  | label (access : Access)
  | actions (access : Access)
  | feature (settings : FieldSettings) (access : Access)
  /-- A field without an attribute. -/
  | nested (access : Access)

namespace Call

/-- The call for a field, which is none for a skipped field. -/
def ofField? (f : NamedField) (s : FieldSettings) : Option Call :=
  let access := Access.of f.name f.type
  if s.isSkipped then none
  else if s.isLabel then some (label access)
  else if s.isActions then some (actions access)
  else if s.isAnnotated then some (feature s access)
  else some (nested access)

def ofFields : List NamedField → Except DeriveError (List Call)
  | [] => .ok []
  | f :: rest => do
    let s ← FieldSettings.ofAttributes f.attributes
    return (ofField? f s).toList ++ (← ofFields rest)

end Call

/-- A derived declaration of a structure. -/
structure Declaration where
  name : String
  calls : List Call

/-- A variant with the name that it goes by. -/
structure NamedVariant where
  identifier : String
  name : String
deriving DecidableEq, Repr

/-- A derived table of variants. -/
structure VariantTable where
  name : String
  variants : List NamedVariant
deriving DecidableEq, Repr

namespace Item

def declaration (item : Item) : Except DeriveError Declaration :=
  match item.body with
  | .variants _ => .error .notStructure
  | .union => .error .notStructure
  | .namedFields fields =>
    if item.isGeneric then .error .genericStructure else (Call.ofFields fields).map (⟨item.name, ·⟩)
  | .noFields => if item.isGeneric then .error .genericStructure else .ok ⟨item.name, []⟩
  | .unnamedFields => .error (if item.isGeneric then .genericStructure else .unnamedFields)

def nameVariants : List Variant → Except DeriveError (List NamedVariant)
  | [] => .ok []
  | v :: rest =>
    if v.isUnit then do
      let name ← variantName? v.attributes
      return ⟨v.name, name.getD v.name⟩ :: (← nameVariants rest)
    else .error .variantFields

def variantTable (item : Item) : Except DeriveError VariantTable :=
  match item.body with
  | .variants variants =>
    if item.isGeneric then .error .genericEnumeration else (nameVariants variants).map (⟨item.name, ·⟩)
  | _ => .error .notEnumeration

end Item

/-! ## Code -/

/-- The texts of tokens, in order. -/
abbrev Code := List String

/-- Code from its texts with spaces between them. -/
def code (s : String) : Code := s.splitOn " "

def inBraces (inside : Code) : Code := ["\x7b"] ++ inside ++ ["\x7d"]

def inParentheses (inside : Code) : Code := ["("] ++ inside ++ [")"]

/-- An option of the core library. -/
def optionCode : Option Code → Code
  | some inside => code ": : core : : option : : Option : : Some" ++ inParentheses inside
  | none => code ": : core : : option : : Option : : None"

def flagCode (b : Bool) : Code := [if b then "true" else "false"]

namespace Access

/-- The reference to the value, from `root`. -/
def getterCode (a : Access) : Code :=
  let field := code "root ." ++ [a.field]
  match a.getter with
  | .reference => optionCode (some (["&"] ++ field))
  | .unboxed => optionCode (some (["&", "*"] ++ field))
  | .present => field ++ code ". as_ref ( )"
  | .presentUnboxed => field ++ code ". as_deref ( )"

def code (a : Access) : Code :=
  Derive.code ": : featwire : : rt : : Access : : < Self ," ++ Token.textsOf a.type.tokens ++ Derive.code "> : :" ++
    [if a.isOptional then "optional" else "required"] ++
    inParentheses ([stringLiteral a.field, ","] ++ Derive.code "| root : & Self |" ++ a.getterCode)

/-- The probe for the type of the value. -/
def probeCode (a : Access) : Code :=
  inBraces (Derive.code "# [ allow ( unused_imports ) ] use : : featwire : : rt : : probe : : * ;" ++
    inParentheses (Derive.code "& & & & & & & & : : featwire : : rt : : probe : : Probe : : <" ++
      Token.textsOf a.type.tokens ++ Derive.code "> : : new ( )") ++
    Derive.code ". member_kind ( )")

end Access

/-- The constructor of a way to make tokens. -/
def stringsCode (strings : StringProcessing) : Code :=
  code ": : featwire : : rt : : StringProcessing : :" ++
    [match strings with
      | .split => "Split"
      | .escape => "Escape"
      | .escapeAndIncludeName => "EscapeAndIncludeName"]

namespace FieldSettings

/-- The attributes of a feature; without a name it is called like its field. -/
def attributesCode (s : FieldSettings) (field : String) : Code :=
  let entry (name : String) (value : Code) : Code := [name, ":"] ++ value ++ [","]
  code ": : featwire : : rt : : FeatureAttr" ++
    inBraces
      (entry "name" [stringLiteral (s.name.getD field)] ++
        entry "namespace" (optionCode (s.namespaceName.map ([·]))) ++ entry "group" (optionCode (s.group.map ([·]))) ++
        entry "order" (optionCode (s.order.map Token.textsOf)) ++ entry "enumerize" (flagCode s.enumerize) ++
        entry "add_anchor" (flagCode s.anchor) ++ entry "dictify" (flagCode s.dictify) ++
        entry "strings" (optionCode (s.strings.map stringsCode)))

/-- The marshaller of a feature, for values of a type. -/
def marshallerCode (s : FieldSettings) (type : TypeExpr) : Code :=
  optionCode (s.marshaller.map fun path =>
    code ": : featwire : : rt : : MarshallerHandle : : from_fn : : <" ++ Token.textsOf type.tokens ++ [">"] ++
      inParentheses (Token.textsOf path))

end FieldSettings

namespace Call

def code : Call → Code
  | label access => Derive.code "schema . label" ++ inParentheses access.code ++ [";"]
  | actions access => Derive.code "schema . action_dependent" ++ inParentheses access.code ++ [";"]
  | nested access =>
    Derive.code "schema . nested" ++ inParentheses (access.code ++ [","] ++ access.probeCode) ++ [";"]
  | feature settings access =>
    Derive.code "schema . feature" ++
      inParentheses (settings.attributesCode access.field ++ [","] ++ access.code ++ [","] ++ access.probeCode ++ [","] ++
        settings.marshallerCode access.type ++ [","]) ++ [";"]

end Call

/-- The implementation that declares the fields of a structure. -/
def Declaration.code (d : Declaration) : Code :=
  Derive.code "impl : : featwire : : FeatureExample for" ++ [d.name] ++
    inBraces (Derive.code "# [ allow ( unused_variables ) ] fn declare" ++
      inParentheses (Derive.code "schema : & mut : : featwire : : rt : : SchemaDeclaration < Self >") ++
      inBraces (d.calls.flatMap Call.code))

namespace VariantTable

/-- The names of the variants, with commas between them. -/
def namesCode : List NamedVariant → Code
  | [] => []
  | [v] => [stringLiteral v.name]
  | v :: rest => [stringLiteral v.name, ","] ++ namesCode rest

/-- The positions of the variants from a number on. -/
def armsCode (index : Nat) : List NamedVariant → Code
  | [] => []
  | v :: rest =>
    Derive.code "Self : :" ++ [v.identifier, "=", ">", toString index ++ "usize", ","] ++ armsCode (index + 1) rest

/-- The implementation that lists the variants and numbers them. -/
def code (t : VariantTable) : Code :=
  Derive.code "impl : : featwire : : FeatureEnum for" ++ [t.name] ++
    inBraces (Derive.code "fn variants ( ) - > & ' static [ & ' static str ]" ++
      inBraces (["&", "["] ++ namesCode t.variants ++ ["]"]) ++
      Derive.code "fn variant_index ( & self ) - > usize" ++
      inBraces (if t.variants.isEmpty then Derive.code "match * self" ++ inBraces []
        else Derive.code "match self" ++ inBraces (armsCode 0 t.variants)))

end VariantTable

def readItem? (source : String) : Except DeriveError Item :=
  match Item.read? source with
  | some item => .ok item
  | none => .error .malformed

/-- The code of the declaration that is derived from a structure. -/
def deriveExample (source : String) : Except DeriveError String :=
  ((readItem? source).bind Item.declaration).map fun d => " ".intercalate d.code

/-- The code of the table that is derived from an enumeration. -/
def deriveEnum (source : String) : Except DeriveError String :=
  ((readItem? source).bind Item.variantTable).map fun t => " ".intercalate t.code

end FeatureLines.Derive
