import FeatureLines.Schema.Declaration

/-!
# Descriptors

A descriptor is a feature as seen from a root: where its value lies, which members on the way may be missing, and what
was said of it. `Descriptor.below` moves the root one member up.
-/

namespace FeatureLines

open Text

/-- A member on the way to a value that must be there. -/
structure Guard where
  /-- The dotted path of the member. -/
  path : String
  /-- The fields that lead to the member. -/
  steps : List Nat
deriving DecidableEq, Repr

/-- A member of a record: where it stands, how it is called, and whether it may be missing. -/
structure Member where
  position : Nat
  path : String
  optional : Bool
deriving DecidableEq, Repr

namespace Guard

/-- Whether the member is there. -/
def holds (g : Guard) (root : Record) : Bool := (root.follow? g.steps).isSome

/-- The guard of a member itself. -/
def ofMember (m : Member) : List Guard := if m.optional then [⟨m.path, [m.position]⟩] else []

/-- The guard seen from the record that holds the root in a member. -/
def below (m : Member) (g : Guard) : Guard := ⟨m.path ++ "." ++ g.path, m.position :: g.steps⟩

def describe (g : Guard) : String := "Guard(" ++ g.path ++ " is present)"

end Guard

/-- A feature as seen from a root. -/
structure Descriptor where
  /-- The escaped name. -/
  name : String
  /-- The dotted path of members from the root. -/
  path : String
  /-- The fields that lead to the value. -/
  steps : List Nat
  type : ValueType
  namespaceName : Option String
  group : Option Char
  order : Int
  enumerize : Bool
  addAnchor : Bool
  dictify : Bool
  strings : StringProcessing
  /-- The members that may be missing, root first. -/
  guards : List Guard
  override : Option Handle

namespace Descriptor

/-- The descriptor of a feature at a member of the root, in the scope it was declared in. -/
def ofFeature (m : Member) (attributes : Attributes) (scope : Scope) (type : ValueType) (override : Option Handle) :
    Descriptor where
  name := escape (if attributes.name.isEmpty then m.path else attributes.name)
  path := m.path
  steps := [m.position]
  type
  namespaceName := scope.namespaceName
  group := scope.group
  order := attributes.order.getD 0
  enumerize := attributes.enumerize
  addAnchor := attributes.addAnchor
  dictify := attributes.dictify
  strings := attributes.strings.getD .escapeAndIncludeName
  guards := Guard.ofMember m
  override

/-- The descriptor seen from the record that holds the root in a member. -/
def below (m : Member) (d : Descriptor) : Descriptor :=
  { d with
    path := m.path ++ "." ++ d.path
    steps := m.position :: d.steps
    guards := Guard.ofMember m ++ d.guards.map (Guard.below m) }

def shape (d : Descriptor) : Shape := d.type.form.shape

/-- Whether a member on the way may be missing. -/
def isNullable (d : Descriptor) : Bool := !d.guards.isEmpty

def isDense (d : Descriptor) : Bool := d.shape == .dense

/-- The value of the feature, if every guard holds and the value is there. -/
def value? (d : Descriptor) (root : Record) : Option Cell :=
  if d.guards.all (·.holds root) then root.follow? d.steps else none

/-- The feature as marshallers see it. -/
def feature (d : Descriptor) : Feature where
  name := d.name
  path := d.path
  order := d.order
  enumerize := d.enumerize
  addAnchor := d.addAnchor
  dictify := d.dictify
  strings := d.strings
  variantTokens := d.type.form.variants.map fun variant => d.name ++ escape variant

def describe (d : Descriptor) : String :=
  record "FeatureDescriptor"
    [("name", quoted d.name), ("path", quoted d.path), ("value_type", "ValueType(" ++ d.type.name ++ ")"),
      ("namespace", optional (d.namespaceName.map quoted)), ("group", optional (d.group.map quotedSymbol)),
      ("order", toString d.order), ("shape", d.shape.name),
      ("guards", bracketed (d.guards.map Guard.describe))] true

end Descriptor

end FeatureLines
