import FeatureLines.Schema.Descriptor

/-!
# Registries and resolution

A registry binds marshallers to types, the last registration of a type counting. Two registrations of a stateless
marshaller are interchangeable; one with state of its own is only like itself. `resolve` binds a feature to its
marshaller: its own, the registered one, or the built-in one.
-/

namespace FeatureLines

open Text

/-- What makes registrations interchangeable. -/
inductive Identity where
  /-- A marshaller without state, by its name. -/
  | stateless (name : String)
  /-- A registration that is only like itself. -/
  | stateful (serial : Nat)
deriving DecidableEq, Repr

/-- A registration. -/
structure Entry where
  handle : Handle
  /-- The number of the registration. -/
  serial : Nat
  isStateless : Bool

def Entry.identity (e : Entry) : Identity := if e.isStateless then .stateless e.handle.name else .stateful e.serial

/-- The marshallers of a caller, by the type of the values. -/
structure Registry where
  entries : List (ValueType × Entry)

namespace Registry

def empty : Registry := ⟨[]⟩

/-- Binds a marshaller to a type in place of the one before. -/
def register (r : Registry) (type : ValueType) (entry : Entry) : Registry :=
  ⟨r.entries.filter (·.1 ≠ type) ++ [(type, entry)]⟩

def entry? (r : Registry) (type : ValueType) : Option Entry := r.entries.lookup type

def get? (r : Registry) (type : ValueType) : Option Handle := (r.entry? type).map Entry.handle

def size (r : Registry) : Nat := r.entries.length

/-- Types and marshallers in the order of the types' names, if every marshaller is stateless. -/
def contentKey? (r : Registry) : Option (List (String × String)) :=
  let name? (binding : ValueType × Entry) : Option (String × String) :=
    match binding.2.identity with
    | .stateless name => some (binding.1.name, name)
    | .stateful _ => none
  (r.entries.mapM name?).map fun key => key.mergeSort fun a b => a.1 ≤ b.1

/-- Whether what is compiled for the registry serves every registry of the same content. -/
def isShareable (r : Registry) : Bool := r.contentKey?.isSome

def describe (r : Registry) : String :=
  record "MarshallerRegistry"
    [("entries", toString r.size), ("shared", if r.isShareable then "true" else "false")] false

end Registry

/-- Where the marshaller of a feature comes from. -/
inductive Resolution where
  | override
  | registered
  | enumerized
  | builtIn
deriving DecidableEq, Repr

def Resolution.name : Resolution → String
  | override => "Override"
  | registered => "Registered"
  | enumerized => "Enumerized"
  | builtIn => "BuiltIn"

/-- The marshaller of a feature: the one bound to its member, else the one registered for its type, else the built-in
one. An enumerized feature has no other built-in one. -/
def resolve (type : String) (r : Registry) (d : Descriptor) : Except SchemaError (Handle × Resolution) :=
  match d.override with
  | some handle => .ok (handle, .override)
  | none =>
    match r.get? d.type with
    | some handle => .ok (handle, .registered)
    | none =>
      let builtIn :=
        if d.enumerize then (Handle.enumerizing? d.type).map (·, Resolution.enumerized)
        else (Handle.builtIn? d.type).map (·, Resolution.builtIn)
      match builtIn with
      | some found => .ok found
      | none => .error (.unresolvedMarshaller type d.path d.type.name)

end FeatureLines
