import FeatureLines.Example.Basic

/-!
# Building examples

A builder holds the namespaces that are closed and the one that is open, if any. Closing a namespace keeps it when it
has a feature and drops it when it has none; features that come while nothing is open are dropped.
-/

namespace FeatureLines

open Number

/-- An example under construction. -/
structure Builder where
  label : Option ParsedLabel
  closed : List HashedNamespace
  current : Option HashedNamespace
  leased : Bool
deriving DecidableEq

namespace Builder

def ofExample (e : Example) : Builder := ⟨e.label, e.namespaces, none, e.leased⟩

def setLabel (b : Builder) (label : ParsedLabel) : Builder := { b with label := some label }

/-- Closes the open namespace, if any, and counts its features. -/
def closeNamespace (b : Builder) : Builder × Nat :=
  match b.current with
  | none => (b, 0)
  | some n =>
    ({ b with closed := if n.features.isEmpty then b.closed else b.closed ++ [n], current := none }, n.features.length)

/-- Opens a namespace, closing the one before. -/
def openNamespace (b : Builder) (index : Char) (hash : UInt64) : Builder :=
  { b.closeNamespace.1 with current := some ⟨index, hash, []⟩ }

/-- Room for features is not a part of an example. -/
def preallocate (b : Builder) (_additional : Nat) : Builder := b

/-- Adds a feature to the open namespace. -/
def addFeature (b : Builder) (hash : UInt64) (weight : Single) : Builder :=
  { b with current := b.current.map fun n => { n with features := n.features ++ [⟨hash, weight⟩] } }

/-- Closes the open namespace and gives the example. -/
def finish (b : Builder) : Example :=
  let b := b.closeNamespace.1
  ⟨b.label, b.closed, b.leased⟩

end Builder

end FeatureLines
