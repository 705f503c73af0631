import Mathlib.Algebra.Order.Field.Rat
import Mathlib.Algebra.Order.Ring.Cast
import Mathlib.Data.Nat.Cast.Order.Field
import Mathlib.Tactic.FieldSimp
import Mathlib.Tactic.NormNum
import Mathlib.Tactic.Positivity
import FeatureLines.Number.Shortest
import FeatureLines.Proofs.Number.Rounding

/-!
# Rounding is monotone

A magnitude code and a decimal stand for rational numbers, their values. The code that a decimal rounds to depends on its
value only and grows with it: `roundDecimal_mono`. So the decimals that read back as one code are those of an interval
around the value of the code, which is what a search for the shortest of them relies on.

The two shortcuts of `Format.roundDecimal`, for great and for small exponents, are covered by the same statement: they
give the code that rounding the ratio itself would give (`exists_ratio`).
-/

namespace FeatureLines.Number

/-- The rational number that a decimal stands for. -/
def Decimal.value (d : Decimal) : ℚ := d.digits * (10 : ℚ) ^ d.exponent

namespace Format

variable {f : Format}

/-- The rational number that a code stands for. -/
def value (f : Format) (code : Nat) : ℚ := f.units code / (2 : ℚ) ^ f.unitBits

/-- A greater ratio does not round to a smaller code. -/
lemma nearest_mono {num den num' den' : Nat} (pos : 0 < den) (pos' : 0 < den') (le : num * den' ≤ num' * den) :
    f.nearest num den ≤ f.nearest num' den' := by
  have le : num * 2 ^ f.unitBits * den' ≤ num' * 2 ^ f.unitBits * den := by
    have := Nat.mul_le_mul_right (2 ^ f.unitBits) le
    linarith
  unfold nearest
  simp only
  generalize num * 2 ^ f.unitBits = a at le ⊢
  generalize num' * 2 ^ f.unitBits = b at le ⊢
  obtain ⟨below, above⟩ := f.codeBelow_bounds (a / den)
  obtain ⟨below', above'⟩ := f.codeBelow_bounds (b / den')
  have whole : a / den ≤ b / den' := by
    rw [Nat.le_div_iff_mul_le pos']
    refine Nat.le_of_mul_le_mul_right (c := den) ?_ pos
    have := Nat.mul_le_mul_right den' (Nat.div_mul_le_self a den)
    linarith
  generalize f.codeBelow (a / den) = k at below above ⊢
  generalize f.codeBelow (b / den') = l at below' above' ⊢
  have ordered : k ≤ l := by
    have := f.units_strictMono.lt_iff_lt.1 (lt_of_le_of_lt (below.trans whole) above')
    omega
  refine min_le_min_left _ ?_
  rcases Nat.lt_or_eq_of_le ordered with less | rfl
  · -- the codes that the ratios fall between are apart
    split_ifs <;> omega
  · -- the ratios fall between the same two codes, and the middle of these separates them if anything does
    have scaled : 2 * a * den' ≤ 2 * b * den := by linarith
    generalize f.units k + f.units (k + 1) = middle
    have lower (less : 2 * b < den' * middle) : 2 * a < den * middle := by
      refine Nat.lt_of_mul_lt_mul_right (a := den') ?_
      have := Nat.mul_lt_mul_of_pos_right less pos
      linarith
    have upper (less : den * middle < 2 * a) : den' * middle < 2 * b := by
      refine Nat.lt_of_mul_lt_mul_right (a := den) ?_
      have := Nat.mul_lt_mul_of_pos_right less pos'
      linarith
    split_ifs <;> omega

/-- The ratio of a code's own value rounds to the code. -/
lemma nearest_units {code : Nat} (pos : 0 < code) (le : code ≤ f.infinity) :
    f.nearest (f.units code) (2 ^ f.unitBits) = code :=
  nearest_of_near pos le (near_of_eq pos (Nat.two_pow_pos _) (Nat.mul_comm ..))

/-- The shortcut for great exponents agrees with rounding. -/
lemma nearest_great {digits e : Nat} (nonzero : digits ≠ 0) (far : 2 ^ f.exponentBits ≤ e) :
    f.nearest (digits * 10 ^ e) 1 = f.infinity := by
  refine Nat.le_antisymm (f.nearest_le _ _) ?_
  rcases Nat.eq_zero_or_pos f.infinity with zero | pos
  · omega
  · refine (nearest_units pos le_rfl).symm.trans_le (nearest_mono (Nat.two_pow_pos _) one_pos ?_)
    calc f.units f.infinity * 1 ≤ 2 ^ f.unitBits * 2 ^ (2 ^ f.exponentBits) := by
          rw [Nat.mul_one]; exact units_infinity_le
      _ ≤ 2 ^ f.unitBits * 10 ^ e := Nat.mul_le_mul_left _
          ((Nat.pow_le_pow_right (by decide) far).trans (Nat.pow_le_pow_left (by decide) e))
      _ ≤ digits * 10 ^ e * 2 ^ f.unitBits := by
          rw [Nat.mul_comm]
          exact Nat.mul_le_mul_right _ (Nat.le_mul_of_pos_left _ (Nat.pos_of_ne_zero nonzero))

/-- The shortcut for small exponents agrees with rounding, since the value is less than half a unit. -/
lemma nearest_small {digits e : Nat} (far : digits.log2 + f.unitBits + 1 ≤ e) :
    f.nearest digits (10 ^ (e + 1)) = 0 := by
  have small : 2 * (digits * 2 ^ f.unitBits) < 10 ^ (e + 1) :=
    calc 2 * (digits * 2 ^ f.unitBits) < 2 * (2 ^ (digits.log2 + 1) * 2 ^ f.unitBits) := by
          have := Nat.mul_lt_mul_of_pos_right (Nat.lt_log2_self (n := digits)) (Nat.two_pow_pos f.unitBits)
          omega
      _ = 2 ^ (digits.log2 + f.unitBits + 2) := by ring
      _ ≤ 2 ^ (e + 1) := Nat.pow_le_pow_right (by decide) (by omega)
      _ ≤ 10 ^ (e + 1) := Nat.pow_le_pow_left (by decide) _
  have one : f.units 1 = 1 := f.units_of_lt (by have := Nat.two_pow_pos f.fractionBits; omega)
  have zero : f.codeBelow (digits * 2 ^ f.unitBits / 10 ^ (e + 1)) = 0 := by
    rw [Nat.div_eq_of_lt (by omega)]
    simp [codeBelow, Nat.log2_zero]
  unfold nearest
  simp only [zero, Nat.zero_add, f.units_zero, one, Nat.mul_one, if_pos small, Nat.min_zero]

lemma nearest_zero {den : Nat} (pos : 0 < den) : f.nearest 0 den = 0 := by
  have small : f.nearest 0 (10 ^ (f.unitBits + 1 + 1)) = 0 := nearest_small (by simp)
  exact Nat.le_zero.1 ((nearest_mono pos (Nat.pos_of_neZero _) (by simp)).trans_eq small)

/-- A decimal rounds like a ratio that has its value. -/
lemma exists_ratio (f : Format) (d : Decimal) :
    ∃ num den : Nat, 0 < den ∧ d.value = num / den ∧ f.roundDecimal d.digits d.exponent = f.nearest num den := by
  obtain ⟨digits, exponent⟩ := d
  unfold Decimal.value roundDecimal
  cases exponent with
  | ofNat e =>
    refine ⟨digits * 10 ^ e, 1, one_pos, by simp, ?_⟩
    split
    · rename_i zero
      cases zero
      rw [Nat.zero_mul, nearest_zero one_pos]
    · rename_i nonzero
      simp only
      split
      · rename_i far
        exact (nearest_great nonzero far).symm
      · rfl
  | negSucc e =>
    refine ⟨digits, 10 ^ (e + 1), Nat.pos_of_neZero _, ?_, ?_⟩
    · rw [zpow_negSucc, ← div_eq_mul_inv]
      norm_cast
    · split
      · rename_i zero
        cases zero
        exact (nearest_zero (Nat.pos_of_neZero _)).symm
      · simp only
        split
        · rename_i far
          exact (nearest_small far).symm
        · rfl

/-- A greater decimal does not round to a smaller code. -/
theorem roundDecimal_mono {a b : Decimal} (le : a.value ≤ b.value) :
    f.roundDecimal a.digits a.exponent ≤ f.roundDecimal b.digits b.exponent := by
  obtain ⟨num, den, pos, value, rounds⟩ := f.exists_ratio a
  obtain ⟨num', den', pos', value', rounds'⟩ := f.exists_ratio b
  rw [value, value', div_le_div_iff₀ (by exact_mod_cast pos) (by exact_mod_cast pos')] at le
  rw [rounds, rounds']
  exact nearest_mono pos pos' (by exact_mod_cast le)

/-- A decimal up to the value of a code rounds to the code at most. -/
lemma roundDecimal_le {d : Decimal} {code : Nat} (pos : 0 < code) (le : code ≤ f.infinity)
    (below : d.value ≤ f.value code) : f.roundDecimal d.digits d.exponent ≤ code := by
  obtain ⟨num, den, den_pos, value, rounds⟩ := f.exists_ratio d
  have power : (0 : ℚ) < 2 ^ f.unitBits := by positivity
  rw [value, Format.value, div_le_div_iff₀ (by exact_mod_cast den_pos) power] at below
  rw [rounds]
  exact (nearest_mono den_pos (Nat.two_pow_pos _) (by exact_mod_cast below)).trans_eq (nearest_units pos le)

/-- A decimal from the value of a code on rounds to the code at least. -/
lemma le_roundDecimal {d : Decimal} {code : Nat} (pos : 0 < code) (le : code ≤ f.infinity)
    (above : f.value code ≤ d.value) : code ≤ f.roundDecimal d.digits d.exponent := by
  obtain ⟨num, den, den_pos, value, rounds⟩ := f.exists_ratio d
  have power : (0 : ℚ) < 2 ^ f.unitBits := by positivity
  rw [value, Format.value, div_le_div_iff₀ power (by exact_mod_cast den_pos)] at above
  rw [rounds]
  exact (nearest_units pos le).symm.trans_le (nearest_mono (Nat.two_pow_pos _) den_pos (by exact_mod_cast above))

end Format

end FeatureLines.Number
