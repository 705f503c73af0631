import FeatureLines.Document.Script
import FeatureLines.Marshal.Registry

/-!
# Reading schemas

A schema document declares record types field by field, lists the variants of its enumerations, and registers scripted
marshallers for types.
-/

namespace FeatureLines.Document

/-- A schema that was read. -/
structure Schema where
  nodes : List Node
  /-- The marshallers that are registered for types, in order. -/
  bindings : List (ValueType × Handle)

namespace Schema

def catalogue (s : Schema) : Catalogue := s.nodes.map Node.recordType

/-- The registry of a schema; every registered marshaller has state of its own. -/
def registry (s : Schema) : Registry :=
  s.bindings.zipIdx.foldl (fun r binding => r.register binding.1.1 ⟨binding.1.2, binding.2, false⟩) .empty

end Schema

/-- A marshaller that is a function of the values of a type. -/
def functionHandle (type : ValueType) (write : Namespace → Feature → Cell → Writing) : Handle :=
  ⟨"featwire::marshal::FnMarshaller<" ++ type.name ++ ">", some type, write⟩

/-- What a function marshaller of a document writes: an indicator with the names of the namespace and the feature. -/
def writeNames (space : Namespace) (feature : Feature) (_ : Cell) : Writing :=
  .indicator (space.fullName ++ "." ++ feature.name) .done

/-- Reads the type behind a code. -/
def readType? (v : Vocabulary) (j : Json) : Option ValueType := do
  return (← Content.ofText? v (← j.string?)).type

/-- Reads the marshaller of a field: a function or a script, for the type of the field unless it says otherwise. -/
def readHandle? (v : Vocabulary) (type : ValueType) (j : Json) : Option Handle := do
  let type := ((← (j.get "bound").optional? (readType? v)).getD type)
  if ← j.flagOf? "fn" then return functionHandle type writeNames
  else return (← Script.ofJson? (j.get "script")).handle (v.own "Script") type

def readStrings? (j : Json) : Option StringProcessing := do
  let name ← j.string?
  [StringProcessing.split, .escape, .escapeAndIncludeName].find? (·.name = name)

def readAttributes? (j : Json) : Option Attributes := do
  return {
    name := (← (j.get "name").optional? Json.string?).getD ""
    namespaceName := ← (j.get "namespace").optional? Json.string?
    group := ← (j.get "group").optional? Json.character?
    order := ← (j.get "order").optional? Json.int?
    enumerize := ← j.flagOf? "enumerize"
    addAnchor := ← j.flagOf? "anchor"
    dictify := ← j.flagOf? "dictify"
    strings := ← (j.get "strings").optional? readStrings? }

/-- Reads a field. -/
def readSlot? (v : Vocabulary) (j : Json) : Option Slot := do
  let path ← j.textOf? "path"
  let optional ← j.flagOf? "optional"
  let content? := (j.textOf? "type").bind (Content.ofText? v)
  match (← (j.get "role").optional? Json.string?).getD "feature" with
  | "label" => return ⟨⟨path, optional, .label⟩, .label⟩
  | "actions" =>
    match content? with
    | some (.node _ id) => return ⟨⟨path, optional, .actions id⟩, .nodes id⟩
    | _ => none
  | "nested" =>
    let content ← content?
    return ⟨⟨path, optional, .nested content.type⟩, content⟩
  | "skip" => return ⟨⟨path, optional, .skipped⟩, .value ⟨⟨v.own "Opaque", .scalar .hidden⟩, fun _ => return .hidden⟩⟩
  | _ =>
    let content ← content?
    let override ← (j.get "with").optional? (readHandle? v content.type)
    return ⟨⟨path, optional, .feature (← readAttributes? (j.get "attr")) content.type override⟩, content⟩

/-- Reads a registration: a type and the script for its values. -/
def readBinding? (v : Vocabulary) (j : Json) : Option (ValueType × Handle) := do
  let type ← readType? v (j.get "type")
  return (type, (← Script.ofJson? (j.get "script")).handle (v.own "Script") type)

/-- Reads the variants of the enumerations of a document. -/
def readVariants? (j : Json) : Option (List (List String)) := do
  (← j.listOf? "enums").mapM fun variants => do (← variants.list?).mapM Json.string?

/-- Reads a schema of `count` record types; those past the ones that are declared have no fields. -/
def Schema.read? (v : Vocabulary) (count : Nat) (j : Json) : Option Schema := do
  let v := { v with variants := ← readVariants? j }
  let declared ← (← j.listOf? "types").mapM fun type => do (← type.listOf? "fields").mapM (readSlot? v)
  let bindings ← (← j.listOf? "registry").mapM (readBinding? v)
  return ⟨(List.range count).map fun id => ⟨v.record id, declared[id]?.getD []⟩, bindings⟩

end FeatureLines.Document
