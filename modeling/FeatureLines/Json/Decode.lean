import FeatureLines.Json.Basic
import FeatureLines.Number.Decimal
import FeatureLines.Number.Integer

/-!
# Decoding JSON

Readers of members and numbers. A missing member counts as null, a null flag as false and a null list as empty. Large
integers and floating-point numbers come as strings, so that no digit is lost.
-/

namespace FeatureLines.Json

open Number

/-- The member of a name, or null. -/
def get (j : Json) (name : String) : Json := (j.member? name).getD .null

/-- Reads what may be null. -/
def optional? {α : Type} (read : Json → Option α) : Json → Option (Option α)
  | null => some none
  | value => (read value).map some

def flag? : Json → Option Bool
  | null => some false
  | value => value.bool?

def list? : Json → Option (List Json)
  | null => some []
  | value => value.array?

def character? (j : Json) : Option Char :=
  match j.string?.map String.toList with
  | some [c] => some c
  | _ => none

/-- An integer that is written as a number. -/
def int? : Json → Option Int
  | number literal => literal.toInt?
  | _ => none

/-- A floating-point number in a string. -/
def float? (f : Format) (j : Json) : Option (Binary f) := do (Binary.read f (← j.string?).toList).toOption

def integer? (signed : Bool) (bits : Nat) (j : Json) : Option Int := do
  let text := (← j.string?).toList
  (if signed then readInt bits text else (readNat (2 ^ bits - 1) text).map Int.ofNat).toOption

def word? (j : Json) : Option UInt64 := (j.integer? false 64).map fun i => UInt64.ofNat i.toNat

def flagOf? (j : Json) (name : String) : Option Bool := (j.get name).flag?

/-- The items of a member. -/
def listOf? (j : Json) (name : String) : Option (List Json) := (j.get name).list?

def textOf? (j : Json) (name : String) : Option String := (j.get name).string?

/-- The number of a member. -/
def countOf? (j : Json) (name : String) : Option Nat := (j.get name).nat?

end FeatureLines.Json
