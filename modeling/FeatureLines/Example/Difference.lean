import FeatureLines.Example.Basic

/-!
# Differences between examples

What tells two examples apart: their labels, the number of their namespaces, and position by position a namespace's
header or its features. The order of features inside a namespace does not count.
-/

namespace FeatureLines

open Number Text

/-- One difference between a left and a right example. -/
inductive Difference where
  | label (left right : Option ParsedLabel)
  | namespaceCount (left right : Nat)
  | header (position : Nat) (left right : HashedNamespace)
  /-- Two namespaces of one header with other features. -/
  | features (left right : HashedNamespace)
deriving DecidableEq

namespace Difference

def hashText (hash : UInt64) : String := "0x" ++ String.ofList (Nat.toDigits 16 hash.toNat)

def labelText (label : Option ParsedLabel) : String := optional (label.map ParsedLabel.describe)

def headerText (n : HashedNamespace) : String := "('" ++ String.singleton n.index ++ "', " ++ hashText n.hash ++ ")"

def featuresText (n : HashedNamespace) : String :=
  bracketed (n.sorted.map fun f => "(" ++ toString f.hash.toNat ++ ", " ++ f.weight.precise ++ ")")

def message : Difference → String
  | label left right => s!"label: {labelText left} != {labelText right}"
  | namespaceCount left right => s!"namespace count: {left} != {right}"
  | header position left right => s!"namespace #{position}: {headerText left} != {headerText right}"
  | features left right =>
    "namespace '" ++ String.singleton left.index ++ "' (" ++ hashText left.hash ++ ") features: " ++
      featuresText left ++ " != " ++ featuresText right

def betweenNamespaces? (position : Nat) (left right : HashedNamespace) : Option Difference :=
  if left.index != right.index || left.hash != right.hash then some (.header position left right)
  else if sameList HashedFeature.same left.sorted right.sorted then none
  else some (.features left right)

/-- The differences between the namespaces that both sides have, from a position on. -/
def betweenAll (position : Nat) : List HashedNamespace → List HashedNamespace → List Difference
  | left :: lefts, right :: rights =>
    (betweenNamespaces? position left right).toList ++ betweenAll (position + 1) lefts rights
  | _, _ => []

end Difference

/-- What tells two examples apart. -/
def Example.differences (left right : Example) : List Difference :=
  (if sameLabel left.label right.label then [] else [.label left.label right.label]) ++
    (if left.namespaces.length = right.namespaces.length then []
      else [.namespaceCount left.namespaces.length right.namespaces.length]) ++
    Difference.betweenAll 0 left.namespaces right.namespaces

end FeatureLines
