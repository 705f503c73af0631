import FeatureLines.Example.Builder
import FeatureLines.Hash

/-!
# Engines

A learning engine hashes names, reads labels and allocates examples. The reference engine hashes with xxHash64 under a
seed: the empty namespace is the seed itself, and a feature name made of digits only is an offset into its namespace,
the slot of the dense element with that offset.
-/

namespace FeatureLines

open Number

/-- What an engine provides. -/
structure Engine where
  hashSpace : String → UInt64
  hashFeature : String → UInt64 → UInt64
  /-- The slot of the dense element at an offset. -/
  hashIndex : UInt64 → UInt64 → UInt64 := fun space offset => space + offset
  readLabel : List Char → Except LabelError ParsedLabel := ParsedLabel.read
  /-- Whether the engine keeps count of the examples it allocated. -/
  leases : Bool := false

namespace Engine

/-- The example that an engine allocates. -/
def newExample (e : Engine) : Example := .empty e.leases

/-- The offset that a feature name of digits only stands for. -/
def offset? (name : String) : Option UInt64 :=
  match readDigits (2 ^ (64 : Nat) - 1) .tooLarge 0 name.toList with
  | .ok n => if name.isEmpty then none else some (UInt64.ofNat n)
  | .error _ => none

/-- The engine that hashes with xxHash64 under a seed and counts its examples. -/
def reference (seed : UInt64) : Engine where
  hashSpace name := if name.isEmpty then seed else Hash.text seed name
  hashFeature name space :=
    match offset? name with
    | some offset => space + offset
    | none => Hash.text space name
  leases := true

end Engine

end FeatureLines
