import Mathlib.Algebra.Order.Ring.Nat
import Mathlib.Tactic.Linarith
import Mathlib.Tactic.Ring
import FeatureLines.Number.Decimal

/-!
# Rounding to the nearest value

The units of the magnitude codes form a strictly increasing grid, and `Format.nearest` finds the code of a grid point
from any ratio that is close to it. Closeness is `Format.Near`: the ratio lies strictly between the two midpoints around
the point. The distance between neighbours is bounded by `units_succ_add_le`: relative to a value it is at least one part
in `2 * 2 ^ fractionBits`, which is what makes a fixed number of significant digits enough.

Main statements: `nearest_of_near`, and `roundDecimal_ofNat`, `roundDecimal_negSucc` for decimals.
-/

namespace FeatureLines.Number.Format

variable (f : Format)

/-- In the two lowest binades a code is its own number of units. -/
lemma units_of_lt {c : Nat} (h : c < 2 * 2 ^ f.fractionBits) : f.units c = c := by
  unfold units
  split
  · rfl
  · rename_i low
    have one : c / 2 ^ f.fractionBits = 1 := Nat.div_eq_of_lt_le (by omega) (by omega)
    have parts := Nat.div_add_mod c (2 ^ f.fractionBits)
    rw [one] at parts ⊢
    simp only [Nat.sub_self, pow_zero, mul_one] at parts ⊢
    exact parts

/-- The units of a code with a leading one, by the shift of its binade. -/
lemma units_shift {m : Nat} (s : Nat) (lo : 2 ^ f.fractionBits ≤ m) (hi : m < 2 * 2 ^ f.fractionBits) :
    f.units (s * 2 ^ f.fractionBits + m) = m * 2 ^ s := by
  have pos : 0 < 2 ^ f.fractionBits := Nat.two_pow_pos _
  obtain ⟨d, rfl⟩ := Nat.exists_eq_add_of_le lo
  have small : d < 2 ^ f.fractionBits := by omega
  have code : s * 2 ^ f.fractionBits + (2 ^ f.fractionBits + d) = d + 2 ^ f.fractionBits * (s + 1) := by ring
  have binade : (d + 2 ^ f.fractionBits * (s + 1)) / 2 ^ f.fractionBits = s + 1 := by
    rw [Nat.add_mul_div_left _ _ pos, Nat.div_eq_of_lt small, Nat.zero_add]
  have fraction : (d + 2 ^ f.fractionBits * (s + 1)) % 2 ^ f.fractionBits = d := by
    rw [Nat.add_mul_mod_self_left, Nat.mod_eq_of_lt small]
  unfold units
  rw [code, binade, fraction, if_neg (by nlinarith [Nat.zero_le (2 ^ f.fractionBits * s)]), Nat.add_sub_cancel]

/-- A code lies in the lowest binade, or it has a leading one under the shift of its binade. -/
lemma exists_shift (c : Nat) :
    c < 2 ^ f.fractionBits ∨
      ∃ s m, 2 ^ f.fractionBits ≤ m ∧ m < 2 * 2 ^ f.fractionBits ∧ c = s * 2 ^ f.fractionBits + m := by
  have pos : 0 < 2 ^ f.fractionBits := Nat.two_pow_pos _
  by_cases low : c < 2 ^ f.fractionBits
  · exact .inl low
  · right
    have parts := Nat.div_add_mod c (2 ^ f.fractionBits)
    have fraction := Nat.mod_lt c pos
    obtain ⟨s, binade⟩ : ∃ s, c / 2 ^ f.fractionBits = s + 1 :=
      Nat.exists_eq_add_one_of_ne_zero (Nat.div_pos (by omega) pos).ne'
    refine ⟨s, 2 ^ f.fractionBits + c % 2 ^ f.fractionBits, by omega, by omega, ?_⟩
    rw [binade] at parts
    linarith

/-- One code on, a mantissa grows by one, also where it carries into the next binade. -/
lemma units_shift_succ {m : Nat} (s : Nat) (lo : 2 ^ f.fractionBits ≤ m) (hi : m < 2 * 2 ^ f.fractionBits) :
    f.units (s * 2 ^ f.fractionBits + m + 1) = (m + 1) * 2 ^ s := by
  by_cases carry : m + 1 < 2 * 2 ^ f.fractionBits
  · exact f.units_shift s (by omega) carry
  · -- the greatest mantissa of a binade: the next code is the least one of the binade above
    have full : m + 1 = 2 * 2 ^ f.fractionBits := by omega
    have code : s * 2 ^ f.fractionBits + m + 1 = (s + 1) * 2 ^ f.fractionBits + 2 ^ f.fractionBits := by linarith
    rw [code, f.units_shift (s + 1) le_rfl (by have := Nat.two_pow_pos f.fractionBits; omega), full]
    ring

/-- Neighbouring values differ by at least the greater one over `2 * 2 ^ fractionBits`. -/
lemma units_succ_add_le (c : Nat) :
    f.units (c + 1) + 2 * 2 ^ f.fractionBits * f.units c ≤ 2 * 2 ^ f.fractionBits * f.units (c + 1) := by
  rcases f.exists_shift c with low | ⟨s, m, lo, hi, rfl⟩
  · rw [f.units_of_lt (by omega), f.units_of_lt (by omega)]
    nlinarith
  · rw [f.units_shift_succ s lo hi, f.units_shift s lo hi]
    have scaled := Nat.mul_le_mul_right (2 ^ s) (show m + 1 ≤ 2 * 2 ^ f.fractionBits by omega)
    linarith

lemma units_zero : f.units 0 = 0 :=
  f.units_of_lt (by have := Nat.two_pow_pos f.fractionBits; omega)

/-- The values increase with their codes. -/
lemma units_strictMono : StrictMono f.units := by
  refine strictMono_nat_of_lt_succ fun c => ?_
  rcases f.exists_shift c with low | ⟨s, m, lo, hi, rfl⟩
  · rw [f.units_of_lt (by omega), f.units_of_lt (by omega)]
    omega
  · rw [f.units_shift_succ s lo hi, f.units_shift s lo hi]
    exact Nat.mul_lt_mul_of_pos_right (Nat.lt_succ_self m) (Nat.two_pow_pos s)

/-- The binade that `codeBelow` chooses holds a number of units with its leading one. -/
lemma div_shift_bounds {t : Nat} (h : 2 ^ f.fractionBits ≤ t) :
    2 ^ f.fractionBits ≤ t / 2 ^ (t.log2 - f.fractionBits) ∧
      t / 2 ^ (t.log2 - f.fractionBits) < 2 * 2 ^ f.fractionBits := by
  have ne : t ≠ 0 := by have := Nat.two_pow_pos f.fractionBits; omega
  have bits : f.fractionBits ≤ t.log2 := (Nat.le_log2 ne).2 h
  have low : 2 ^ f.fractionBits * 2 ^ (t.log2 - f.fractionBits) ≤ t := by
    rw [← pow_add, Nat.add_sub_cancel' bits]
    exact Nat.log2_self_le ne
  have high : t < 2 * 2 ^ f.fractionBits * 2 ^ (t.log2 - f.fractionBits) := by
    rw [mul_assoc, ← pow_add, Nat.add_sub_cancel' bits, ← pow_succ']
    exact Nat.lt_log2_self
  exact ⟨(Nat.le_div_iff_mul_le (Nat.two_pow_pos _)).2 low, (Nat.div_lt_iff_lt_mul (Nat.two_pow_pos _)).2 high⟩

/-- `codeBelow` finds the values around a number of units. -/
lemma codeBelow_bounds (t : Nat) : f.units (f.codeBelow t) ≤ t ∧ t < f.units (f.codeBelow t + 1) := by
  by_cases low : t < 2 ^ f.fractionBits
  · have shift : t.log2 - f.fractionBits = 0 := by
      by_cases zero : t = 0
      · simp [zero, Nat.log2_zero]
      · exact Nat.sub_eq_zero_of_le ((Nat.log2_lt zero).2 low).le
    have code : f.codeBelow t = t := by simp [codeBelow, shift]
    rw [code, f.units_of_lt (by omega), f.units_of_lt (by omega)]
    omega
  · obtain ⟨lo, hi⟩ := f.div_shift_bounds (Nat.le_of_not_lt low)
    have parts := Nat.div_add_mod t (2 ^ (t.log2 - f.fractionBits))
    have rest := Nat.mod_lt t (Nat.two_pow_pos (t.log2 - f.fractionBits))
    unfold codeBelow
    rw [f.units_shift _ lo hi, f.units_shift_succ _ lo hi]
    refine ⟨Nat.div_mul_le_self _ _, ?_⟩
    linarith

/-- A ratio lies strictly between the midpoints around the value of a code. -/
structure Near (num den code : Nat) : Prop where
  lower : den * (f.units (code - 1) + f.units code) < 2 * (num * 2 ^ f.unitBits)
  upper : 2 * (num * 2 ^ f.unitBits) < den * (f.units code + f.units (code + 1))

variable {f}

/-- A ratio rounds to the code that it is near to. -/
theorem nearest_of_near {num den code : Nat} (pos : 0 < code) (le : code ≤ f.infinity) (near : f.Near num den code) :
    f.nearest num den = code := by
  obtain ⟨lower, upper⟩ := near
  have den_pos : 0 < den := Nat.pos_of_ne_zero fun zero => by simp [zero] at upper
  obtain ⟨below, above⟩ := f.codeBelow_bounds (num * 2 ^ f.unitBits / den)
  generalize hk : f.codeBelow (num * 2 ^ f.unitBits / den) = k at below above
  have below : den * f.units k ≤ num * 2 ^ f.unitBits := by
    rw [mul_comm]; exact (Nat.le_div_iff_mul_le den_pos).1 below
  have above : num * 2 ^ f.unitBits < den * f.units (k + 1) := by
    rw [mul_comm den]; exact (Nat.div_lt_iff_lt_mul den_pos).1 above
  have mono : ∀ {a b}, a ≤ b → den * f.units a ≤ den * f.units b := fun h =>
    Nat.mul_le_mul_left den (f.units_strictMono.monotone h)
  unfold nearest
  simp only [hk]
  -- the values around the ratio are those at the code, or the ones just below it
  rcases lt_trichotomy k code with less | rfl | greater
  · have next : k + 1 = code := by
      by_contra other
      have := mono (show k + 1 ≤ code - 1 by omega)
      have := mono (show code - 1 ≤ code by omega)
      linarith
    have prev : code - 1 = k := by omega
    rw [prev] at lower
    rw [next, if_neg (by omega), if_pos lower, min_eq_right le]
  · rw [if_pos upper, min_eq_right le]
  · have := mono (show code + 1 ≤ k by omega)
    have := mono (show code ≤ code + 1 by omega)
    linarith

/-- A ratio is near to the code whose value it is. -/
lemma near_of_eq {num den code : Nat} (pos : 0 < code) (den_pos : 0 < den)
    (eq : num * 2 ^ f.unitBits = den * f.units code) : f.Near num den code := by
  have below := Nat.mul_lt_mul_of_pos_left (f.units_strictMono (show code - 1 < code by omega)) den_pos
  have above := Nat.mul_lt_mul_of_pos_left (f.units_strictMono (Nat.lt_succ_self code)) den_pos
  constructor <;> rw [eq] <;> linarith

lemma Near.unscale {num den code k : Nat} (near : f.Near (num * k) (den * k) code) : f.Near num den code := by
  constructor
  · refine Nat.lt_of_mul_lt_mul_right (a := k) ?_
    linarith [near.lower]
  · refine Nat.lt_of_mul_lt_mul_right (a := k) ?_
    linarith [near.upper]

/-- Half the distance to a neighbour bounds how far a ratio may be off. -/
lemma near_of_close {num den code error : Nat} (pos : 0 < code)
    (low : 2 * (den * f.units code) ≤ 2 * (num * 2 ^ f.unitBits) + error)
    (high : 2 * (num * 2 ^ f.unitBits) ≤ 2 * (den * f.units code) + error)
    (small : 2 * 2 ^ f.fractionBits * error < den * f.units code) : f.Near num den code := by
  obtain ⟨k, rfl⟩ := Nat.exists_eq_add_one_of_ne_zero pos.ne'
  have below := Nat.mul_le_mul_left den (f.units_succ_add_le k)
  have above := Nat.mul_le_mul_left den (f.units_succ_add_le (k + 1))
  have mono := Nat.mul_le_mul_left den (f.units_strictMono (show k + 1 < k + 1 + 1 by omega)).le
  have low := Nat.mul_le_mul_left (2 * 2 ^ f.fractionBits) low
  have high := Nat.mul_le_mul_left (2 * 2 ^ f.fractionBits) high
  constructor
  · rw [Nat.add_sub_cancel]
    refine Nat.lt_of_mul_lt_mul_left (a := 2 * 2 ^ f.fractionBits) ?_
    linarith
  · refine Nat.lt_of_mul_lt_mul_left (a := 2 * 2 ^ f.fractionBits) ?_
    linarith

/-- Infinity is too many units for a power of ten as great as `10 ^ (2 ^ exponentBits)`. -/
lemma units_infinity_le : f.units f.infinity ≤ 2 ^ f.unitBits * 2 ^ (2 ^ f.exponentBits) := by
  unfold infinity
  by_cases none : 2 ^ f.exponentBits - 1 = 0
  · simp [none, f.units_zero]
  · obtain ⟨s, binades⟩ := Nat.exists_eq_add_one_of_ne_zero none
    have code : (2 ^ f.exponentBits - 1) * 2 ^ f.fractionBits = s * 2 ^ f.fractionBits + 2 ^ f.fractionBits := by
      rw [binades]; ring
    rw [code, f.units_shift s le_rfl (by have := Nat.two_pow_pos f.fractionBits; omega), ← pow_add, ← pow_add]
    exact Nat.pow_le_pow_right (by decide) (by unfold unitBits; omega)

/-- A decimal without places rounds to the code that it is near to. -/
theorem roundDecimal_ofNat {digits e code : Nat} (pos : 0 < code) (lt : code < f.infinity)
    (near : f.Near (digits * 10 ^ e) 1 code) : f.roundDecimal digits (.ofNat e) = code := by
  have nonzero : digits ≠ 0 := by
    rintro rfl
    simpa using near.lower
  have top : f.units code + f.units (code + 1) ≤ 2 * f.units f.infinity := by
    have := f.units_strictMono.monotone lt.le
    have := f.units_strictMono.monotone (show code + 1 ≤ f.infinity from lt)
    omega
  have small : 10 ^ e < 2 ^ (2 ^ f.exponentBits) := by
    refine Nat.lt_of_mul_lt_mul_right (a := 2 ^ f.unitBits) ?_
    calc 10 ^ e * 2 ^ f.unitBits ≤ digits * 10 ^ e * 2 ^ f.unitBits :=
          Nat.mul_le_mul_right _ (Nat.le_mul_of_pos_left _ (Nat.pos_of_ne_zero nonzero))
      _ < f.units f.infinity := by have := near.upper; omega
      _ ≤ 2 ^ (2 ^ f.exponentBits) * 2 ^ f.unitBits := by rw [mul_comm]; exact units_infinity_le
  -- the shortcut for great exponents is not taken, since infinity would be nearer
  have inRange : ¬2 ^ f.exponentBits ≤ e := fun far => by
    have := Nat.pow_le_pow_right (show 0 < 2 by decide) far
    have := Nat.pow_le_pow_left (show 2 ≤ 10 by decide) e
    omega
  unfold roundDecimal
  rw [if_neg nonzero]
  simp only [if_neg inRange]
  exact nearest_of_near pos lt.le near

/-- A decimal with places rounds to the code that it is near to. -/
theorem roundDecimal_negSucc {digits e code : Nat} (pos : 0 < code) (lt : code < f.infinity)
    (near : f.Near digits (10 ^ (e + 1)) code) : f.roundDecimal digits (.negSucc e) = code := by
  have nonzero : digits ≠ 0 := by
    rintro rfl
    simpa using near.lower
  have unit : 0 < f.units code := by
    have := f.units_strictMono pos
    rw [f.units_zero] at this
    exact this
  have visible : 10 ^ (e + 1) < 2 ^ (digits.log2 + 1) * (2 * 2 ^ f.unitBits) := by
    calc 10 ^ (e + 1) ≤ 10 ^ (e + 1) * (f.units (code - 1) + f.units code) := Nat.le_mul_of_pos_right _ (by omega)
      _ < digits * (2 * 2 ^ f.unitBits) := by linarith [near.lower]
      _ ≤ 2 ^ (digits.log2 + 1) * (2 * 2 ^ f.unitBits) := Nat.mul_le_mul_right _ Nat.lt_log2_self.le
  -- nor is the one for decimals below half a unit
  have inRange : ¬digits.log2 + f.unitBits + 1 ≤ e := fun far => by
    have := Nat.pow_le_pow_left (show 2 ≤ 10 by decide) (e + 1)
    have wide := Nat.pow_le_pow_right (show 0 < 2 by decide) (show digits.log2 + f.unitBits + 2 ≤ e + 1 by omega)
    have split : 2 ^ (digits.log2 + 1) * (2 * 2 ^ f.unitBits) = 2 ^ (digits.log2 + f.unitBits + 2) := by ring
    omega
  unfold roundDecimal
  rw [if_neg nonzero]
  simp only [if_neg inRange]
  exact nearest_of_near pos lt.le near

end FeatureLines.Number.Format
