import FeatureLines.Label

/-!
# Examples

An example is one line as the engine holds it: a label, and namespaces of hashed features. Two examples are `same` when
their labels and their features agree as numbers; which engine allocated them plays no part.
-/

namespace FeatureLines

open Number

/-- A feature: the hash of its name and its weight. -/
structure HashedFeature where
  hash : UInt64
  weight : Single
deriving DecidableEq

/-- A namespace: the first character of its name, the hash of its name, and its features in order. -/
structure HashedNamespace where
  index : Char
  hash : UInt64
  features : List HashedFeature
deriving DecidableEq

/-- One line as the engine holds it. A leased example counts as alive at its engine until it is dropped. -/
structure Example where
  label : Option ParsedLabel
  namespaces : List HashedNamespace
  leased : Bool
deriving DecidableEq

/-- Equality of lists by a test on their members. -/
def sameList {α : Type} (same : α → α → Bool) : List α → List α → Bool
  | [], [] => true
  | a :: as, b :: bs => same a b && sameList same as bs
  | _, _ => false

namespace HashedFeature

def same (a b : HashedFeature) : Bool := a.hash == b.hash && a.weight.eqNumber b.weight

/-- The order by hash, and for one hash by weight. -/
def le (a b : HashedFeature) : Bool :=
  a.hash < b.hash || (a.hash == b.hash && decide (a.weight.orderKey ≤ b.weight.orderKey))

end HashedFeature

namespace HashedNamespace

def same (a b : HashedNamespace) : Bool :=
  a.index == b.index && a.hash == b.hash && sameList HashedFeature.same a.features b.features

/-- The features in the order of their hashes and weights. -/
def sorted (n : HashedNamespace) : List HashedFeature := n.features.mergeSort HashedFeature.le

end HashedNamespace

/-- Labels that agree as numbers, or are missing on both sides. -/
def sameLabel : Option ParsedLabel → Option ParsedLabel → Bool
  | none, none => true
  | some a, some b => a.eqNumber b
  | _, _ => false

namespace Example

/-- An example without label and features. -/
def empty (leased : Bool) : Example := ⟨none, [], leased⟩

def featureCount (e : Example) : Nat := e.namespaces.foldl (fun count n => count + n.features.length) 0

def isEmpty (e : Example) : Bool := e.namespaces.isEmpty

def namespace? (e : Example) (hash : UInt64) : Option HashedNamespace := e.namespaces.find? (·.hash == hash)

/-- Equality up to the lease. -/
def same (a b : Example) : Bool :=
  sameLabel a.label b.label && sameList HashedNamespace.same a.namespaces b.namespaces

end Example

end FeatureLines
