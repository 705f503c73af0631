import FeatureLines.Document.Code
import FeatureLines.Schema.Declaration

/-!
# Reading records

The fields of a declared record type with what they hold, and how a record is read from JSON: a list with an item for
each field, where null is a missing value. Every value that is read gets a place of its own.
-/

namespace FeatureLines.Document

open Number

/-- What a field holds. -/
inductive Content where
  | value (code : Code)
  | node (type : ValueType) (id : Nat)
  | label
  | nodes (id : Nat)

namespace Content

def type : Content → ValueType
  | value code => code.type
  | node type _ => type
  | label => ⟨"label", .label⟩
  | nodes id => ⟨"candidates", .candidates id⟩

def ofText? (v : Vocabulary) (code : String) : Option Content :=
  match between? "node:" "" code with
  | some number => do
    let id ← number.toNat?
    return node ⟨v.record id, .record id⟩ id
  | none => (Code.ofText? v code).map value

end Content

/-- A field with what it holds. -/
structure Slot where
  field : Field
  content : Content

/-- A declared record type with what its fields hold. -/
structure Node where
  name : String
  slots : List Slot

def Node.recordType (n : Node) : RecordType := ⟨n.name, n.slots.map Slot.field⟩

def slotsOf (nodes : List Node) (id : Nat) : List Slot := (nodes[id]?.map Node.slots).getD []

/-- Reads a label: `simple` with a weight or null, `cb` for a bandit's, or `raw` text. -/
def readLabel? (j : Json) : Option Label :=
  match j with
  | .object [("simple", .array [label, weight])] => do
    return .simple (← label.float? _) (← weight.optional? (Json.float? _))
  | .object [("cb", .array [action, cost, probability])] => do
    return .bandit (UInt32.ofNat (← action.integer? false 32).toNat) (← cost.float? _) (← probability.float? _)
  | _ => (j.textOf? "raw").map .raw

def freshSite (type : ValueType) : Read Site := do
  let state ← get
  set { state with places := state.places + 1 }
  return ⟨state.places, type⟩

mutual

/-- Reads the value of a field. -/
def readCell (nodes : List Node) (slot : Slot) : Json → Read (Option Cell)
  | .null => return none
  | .array items => do
    let site ← freshSite slot.content.type
    match slot.content with
    | .value code => return some (.leaf site (← code.read (.array items)))
    | .node _ id => return some (.record site (← readFields nodes (slotsOf nodes id) items))
    | .nodes id => return some (.candidates site (← readRecords nodes (slotsOf nodes id) items))
    | .label => failure
  | j => do
    let site ← freshSite slot.content.type
    match slot.content with
    | .value code => return some (.leaf site (← code.read j))
    | .label => return some (.leaf site (.label (← readLabel? j)))
    | _ => failure

/-- Reads the values of fields; fields without an item are missing. -/
def readFields (nodes : List Node) (slots : List Slot) : List Json → Read Record
  | [] => return slots.map fun _ => none
  | item :: items =>
    match slots with
    | [] => return []
    | slot :: slots => do
      let cell ← readCell nodes slot item
      return cell :: (← readFields nodes slots items)

/-- Reads records of one type. -/
def readRecords (nodes : List Node) (slots : List Slot) : List Json → Read (List Record)
  | [] => return []
  | .array items :: rest => do
    let record ← readFields nodes slots items
    return record :: (← readRecords nodes slots rest)
  | _ :: _ => failure

end

def readRecord (nodes : List Node) (id : Nat) (j : Json) : Read Record := do
  readFields nodes (slotsOf nodes id) (← j.list?)

end FeatureLines.Document
