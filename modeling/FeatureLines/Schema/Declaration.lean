import FeatureLines.Marshal.Handle

/-!
# Declarations

A record type declares its fields in order. A field is a feature with attributes, a member that only hands its scope on,
the label, the candidates of the record, or nothing. The catalogue numbers the record types, so that a field can hold
records of a type declared later, or of its own.
-/

namespace FeatureLines

open Text

/-- What is said of a feature at its field. -/
structure Attributes where
  /-- Empty for the name of the field. -/
  name : String := ""
  namespaceName : Option String := none
  group : Option Char := none
  order : Option Int := none
  enumerize : Bool := false
  addAnchor : Bool := false
  dictify : Bool := false
  strings : Option StringProcessing := none

/-- What a field is for. -/
inductive Role where
  /-- A feature, which may be bound to a marshaller of its own. -/
  | feature (attributes : Attributes) (type : ValueType) (override : Option Handle)
  /-- A member without attributes: it contributes the features of its type, if it has any. -/
  | nested (type : ValueType)
  | label
  /-- The candidates, of a record type. -/
  | actions (candidate : Nat)
  | skipped

/-- A field of a record type. A missing value is expected only where the field is optional. -/
structure Field where
  path : String
  optional : Bool := false
  role : Role

/-- A record type. -/
structure RecordType where
  name : String
  fields : List Field

/-- The record types, by number. -/
abbrev Catalogue := List RecordType

namespace Catalogue

/-- The fields of a record type; a type that is not declared has none. -/
def fields (types : Catalogue) (id : Nat) : List Field := (types[id]?.map RecordType.fields).getD []

def name (types : Catalogue) (id : Nat) : String := (types[id]?.map RecordType.name).getD ""

end Catalogue

/-- A field with its place in the record. -/
structure Placed where
  position : Nat
  path : String
deriving DecidableEq, Repr

/-- The fields that satisfy a test on their roles, with their places. -/
def placedFrom (test : Role → Bool) (position : Nat) : List Field → List Placed
  | [] => []
  | field :: rest =>
    (if test field.role then [⟨position, field.path⟩] else []) ++ placedFrom test (position + 1) rest

namespace Role

def isLabel : Role → Bool
  | label => true
  | _ => false

/-- Features, and members whose type is a record. -/
def isMember : Role → Bool
  | feature .. => true
  | nested type =>
    match type.form with
    | .record _ => true
    | _ => false
  | _ => false

end Role

namespace Catalogue

def members (c : Catalogue) (id : Nat) : List Placed := placedFrom Role.isMember 0 (c.fields id)

def labels (c : Catalogue) (id : Nat) : List Placed := placedFrom Role.isLabel 0 (c.fields id)

/-- A field of candidates with its place and the type of the candidates. -/
def actionsFrom (position : Nat) : List Field → List (Placed × Nat)
  | [] => []
  | field :: rest =>
    (match field.role with
      | .actions candidate => [(⟨position, field.path⟩, candidate)]
      | _ => []) ++ actionsFrom (position + 1) rest

def actions (c : Catalogue) (id : Nat) : List (Placed × Nat) := actionsFrom 0 (c.fields id)

/-- The description of a declaration. -/
def describe (c : Catalogue) (id : Nat) : String :=
  let paths (placed : List Placed) : String := bracketed (placed.map fun p => quoted p.path)
  record "SchemaDeclaration"
    [("members", paths (c.members id)), ("labels", paths (c.labels id)),
      ("actions", paths ((c.actions id).map (·.1)))] false

end Catalogue

end FeatureLines
