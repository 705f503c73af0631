import FeatureLines.Schema.Descriptor

/-!
# Grouping

Features that agree in namespace, in group and in being dense share a namespace of the example. Groups stand in the
order in which they are first met, and the features of a group in the order that they declare, those of one order as
they were met. A dense group holds one feature and shares its namespace with no other group.
-/

namespace FeatureLines

/-- What the features of a group have in common. -/
structure GroupKey where
  namespaceName : Option String
  group : Option Char
  dense : Bool
deriving DecidableEq, Repr

def Descriptor.key (d : Descriptor) : GroupKey := ⟨d.namespaceName, d.group, d.isDense⟩

/-- The features of one namespace. -/
structure Group where
  key : GroupKey
  features : List Descriptor

namespace Group

def runtime (g : Group) : Namespace := .make g.key.namespaceName g.key.group

/-- Adds a feature to the group of its key, which is made at the end if there is none. -/
def add (d : Descriptor) : List Group → List Group
  | [] => [⟨d.key, [d]⟩]
  | g :: rest => if g.key = d.key then { g with features := g.features ++ [d] } :: rest else g :: add d rest

/-- The groups of some features, in the order in which they are met. -/
def collect (ds : List Descriptor) : List Group := ds.foldl (fun groups d => add d groups) []

/-- What is wrong with a group among others. -/
def problem? (type : String) (all : List Group) (g : Group) : Option SchemaError :=
  if g.key.dense then
    if all.any fun other => other.key = { g.key with dense := false } then
      some (.mixedNamespace type g.runtime.fullName)
    else if 1 < g.features.length then
      some (.multipleDenseFeatures type g.runtime.fullName (g.features.map Descriptor.path))
    else none
  else none

def sorted (g : Group) : Group := { g with features := g.features.mergeSort fun a b => a.order ≤ b.order }

end Group

/-- The groups of some features, unless one of them is wrong. -/
def groupFeatures (type : String) (ds : List Descriptor) : Except SchemaError (List Group) :=
  let groups := Group.collect ds
  match groups.findSome? (Group.problem? type groups) with
  | some problem => .error problem
  | none => .ok (groups.map Group.sorted)

end FeatureLines
