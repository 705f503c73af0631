import FeatureLines.Proofs.Number.Literal
import FeatureLines.Engine

/-!
# Regular engines

What the two forms of an example need of an engine in order to agree: labels are read in the usual way, and a token that
is the text of an offset goes to the slot of the offset. The reference engine is regular under every seed, because the
text of an offset is read back as the offset.
-/

namespace FeatureLines

open Number

namespace Number

lemma le_ofDigitChars (digits : List Char) (value : Nat) : value ≤ Nat.ofDigitChars 10 digits value := by
  induction digits generalizing value with
  | nil => simp [Nat.ofDigitChars_eq_foldl]
  | cons d digits ih =>
    have rest := ih (10 * value + (d.toNat - '0'.toNat))
    simp only [Nat.ofDigitChars_eq_foldl, List.foldl_cons] at rest ⊢
    omega

/-- Digits whose value keeps the limit are read as their value. -/
lemma readDigits_ofDigitChars {limit value : Nat} {overflow : IntegerError} {digits : List Char}
    (isDigit : ∀ c ∈ digits, c.isDigit) (le : Nat.ofDigitChars 10 digits value ≤ limit) :
    readDigits limit overflow value digits = .ok (Nat.ofDigitChars 10 digits value) := by
  induction digits generalizing value with
  | nil => simp [readDigits, Nat.ofDigitChars_eq_foldl]
  | cons d digits ih =>
    have step : Nat.ofDigitChars 10 (d :: digits) value =
        Nat.ofDigitChars 10 digits (10 * value + (d.toNat - '0'.toNat)) := by
      simp [Nat.ofDigitChars_eq_foldl]
    rw [step] at le ⊢
    have small := (le_ofDigitChars digits _).trans le
    rw [readDigits, if_pos (isDigit d List.mem_cons_self)]
    simp only [if_neg (Nat.not_lt.2 small)]
    exact ih (fun c mem => isDigit c (List.mem_cons_of_mem _ mem)) le

/-- A number that keeps the limit is read back from its digits. -/
lemma readDigits_toDigits {limit n : Nat} {overflow : IntegerError} (le : n ≤ limit) :
    readDigits limit overflow 0 (Nat.toDigits 10 n) = .ok n := by
  have value := Nat.ofDigitChars_ten_toDigits (n := n)
  have read : readDigits limit overflow 0 (Nat.toDigits 10 n) = .ok (Nat.ofDigitChars 10 (Nat.toDigits 10 n) 0) :=
    readDigits_ofDigitChars (fun _ => isDigit_of_mem_toDigits) (by rwa [value])
  rwa [value] at read

end Number

namespace Engine

/-- An engine that reads labels in the usual way and finds the slot of an offset by the text of the offset. -/
structure Regular (engine : Engine) : Prop where
  readLabel : engine.readLabel = ParsedLabel.read
  hashFeature_offset : ∀ (space index : UInt64),
    engine.hashFeature (toString index.toNat) space = engine.hashIndex space index

/-- The text of an offset stands for the offset. -/
lemma offset?_toString (index : UInt64) : offset? (toString index.toNat) = some index := by
  have digits : (toString index.toNat).toList = Nat.toDigits 10 index.toNat := Nat.toList_repr
  have nonempty : (toString index.toNat).isEmpty = false := by
    refine Bool.eq_false_iff.2 fun empty => ?_
    have blank : toString index.toNat = "" := String.isEmpty_iff.1 empty
    rw [blank] at digits
    exact Nat.toDigits_ne_nil digits.symm
  have bound : index.toNat ≤ 2 ^ 64 - 1 := Nat.le_sub_one_of_lt index.toNat_lt
  unfold offset?
  rw [digits, readDigits_toDigits bound, nonempty]
  simp

/-- The reference engine is regular under every seed. -/
theorem reference_regular (seed : UInt64) : (reference seed).Regular where
  readLabel := rfl
  hashFeature_offset space index := by
    unfold reference
    simp only [offset?_toString]

end Engine

end FeatureLines
