import Mathlib.Algebra.Order.Field.Power
import Mathlib.Algebra.Order.Group.Abs
import FeatureLines.Options
import FeatureLines.Proofs.Number.Monotone
import FeatureLines.Proofs.Number.ReadBack

/-!
# The texts of weights

A weight format writes one of two decimals for a finite weight. `Format.Shortest` is a decimal that reads back while none
with fewer digits does, `Format.Rounded` the value rounded to a count of significant digits. The searches that find them
(`Format.shortest`, `Format.significant`) meet these descriptions, and any decimal that meets its description reads back.

For the shortest decimal this is half of the description. For the rounded one it is a matter of spacing: nine digits are
on a finer grid than the neighbours of a 32 bit value in every binade, the lowest ones included, eight are not.

Main statement: `FloatFormat.survives`.
-/

namespace FeatureLines.Number.Format

variable {f : Format} {code : Nat}

/-! ### Counting digits -/

lemma lt_pow_decimalLength (n : Nat) : n < 10 ^ decimalLength n :=
  (Nat.length_toDigits_le_iff (by decide) Nat.length_toDigits_pos).1 le_rfl

lemma pow_pred_decimalLength_le {n : Nat} (ne : n ≠ 0) : 10 ^ (decimalLength n - 1) ≤ n := by
  by_cases single : decimalLength n - 1 = 0
  · rw [single, pow_zero]
    exact Nat.pos_of_ne_zero ne
  · by_contra less
    have := (Nat.length_toDigits_le_iff (by decide) (Nat.pos_of_ne_zero single)).2 (Nat.lt_of_not_le less)
    unfold decimalLength at this single
    omega

/-! ### What the texts are -/

/-- A decimal reads back as a code, and none with fewer digits does. -/
structure Shortest (f : Format) (code : Nat) (d : Decimal) : Prop where
  reads : f.roundDecimal d.digits d.exponent = code
  fewest : ∀ other : Decimal, f.roundDecimal other.digits other.exponent = code →
    decimalLength d.digits ≤ decimalLength other.digits

/-- A decimal is the value of a code rounded to a count of significant digits: it has so many of them, and it is off by
half a unit of the last one at most. -/
structure Rounded (f : Format) (count code : Nat) (d : Decimal) : Prop where
  least : 10 ^ (count - 1) ≤ d.digits
  most : d.digits < 10 ^ count
  close : |d.value - f.value code| ≤ (10 : ℚ) ^ d.exponent / 2

/-! ### Values on decimal grids -/

lemma digits_ne_zero {n : Nat} {exponent : Int} (pos : 0 < code) (reads : f.roundDecimal n exponent = code) :
    n ≠ 0 := by
  rintro rfl
  simp only [roundDecimal, if_true] at reads
  omega

/-- The ratio of a value and a power of ten. -/
lemma overPower_ratio (f : Format) (code : Nat) (exponent : Int) :
    0 < (f.overPower code exponent).2 ∧
      ((f.overPower code exponent).1 : ℚ) / (f.overPower code exponent).2 * (10 : ℚ) ^ exponent = f.value code := by
  unfold overPower value
  cases exponent with
  | ofNat e =>
    refine ⟨Nat.mul_pos (Nat.two_pow_pos _) (Nat.pos_of_neZero _), ?_⟩
    simp only [Int.ofNat_eq_natCast, zpow_natCast]
    push_cast
    field_simp
  | negSucc e =>
    refine ⟨Nat.two_pow_pos _, ?_⟩
    simp only [zpow_negSucc]
    push_cast
    field_simp

/-- A value lies between two neighbours of every decimal grid. -/
lemma value_between (f : Format) (code : Nat) (exponent : Int) :
    Decimal.value ⟨(f.overPower code exponent).1 / (f.overPower code exponent).2, exponent⟩ ≤ f.value code ∧
      f.value code < Decimal.value ⟨(f.overPower code exponent).1 / (f.overPower code exponent).2 + 1, exponent⟩ := by
  obtain ⟨pos, ratio⟩ := f.overPower_ratio code exponent
  have power : (0 : ℚ) < 10 ^ exponent := by positivity
  have pos' : (0 : ℚ) < (f.overPower code exponent).2 := by exact_mod_cast pos
  have low := Nat.div_mul_le_self (f.overPower code exponent).1 (f.overPower code exponent).2
  have high := Nat.lt_mul_div_succ (f.overPower code exponent).1 pos
  unfold Decimal.value
  rw [← ratio]
  constructor
  · refine mul_le_mul_of_nonneg_right ((le_div_iff₀ pos').2 ?_) power.le
    exact_mod_cast low
  · refine mul_lt_mul_of_pos_right ((div_lt_iff₀ pos').2 ?_) power
    rw [mul_comm]
    exact_mod_cast high

/-- Where no point of a grid is chosen, neither neighbour of the value reads back. -/
lemma neighbours_of_gridPoint?_eq_none {exponent : Int} (none : f.gridPoint? code exponent = none) (n : Nat)
    (neighbour : n = (f.overPower code exponent).1 / (f.overPower code exponent).2 ∨
      n = (f.overPower code exponent).1 / (f.overPower code exponent).2 + 1) (nonzero : n ≠ 0) :
    f.roundDecimal n exponent ≠ code := by
  unfold gridPoint? at none
  simp only at none
  split at none
  · split at none <;> cases none
  · cases none
  · cases none
  · rename_i low high
    rcases neighbour with rfl | rfl
    · simpa [nonzero] using low
    · simpa using high

/-- A decimal grid on which no point is found for a code has none. -/
lemma ne_of_gridPoint?_eq_none {exponent : Int} (pos : 0 < code) (le : code ≤ f.infinity)
    (none : f.gridPoint? code exponent = none) (n : Nat) : f.roundDecimal n exponent ≠ code := by
  obtain ⟨low, high⟩ := f.value_between code exponent
  have neighbours := neighbours_of_gridPoint?_eq_none none
  generalize (f.overPower code exponent).1 / (f.overPower code exponent).2 = whole at low high neighbours
  have order {a b : Nat} (h : a ≤ b) : f.roundDecimal a exponent ≤ f.roundDecimal b exponent :=
    roundDecimal_mono (a := ⟨a, exponent⟩) (b := ⟨b, exponent⟩)
      (mul_le_mul_of_nonneg_right (by exact_mod_cast h) (by positivity))
  intro reads
  -- a point above the value pushes the upper neighbour to the code, one below it the lower neighbour
  rcases Nat.lt_or_ge whole n with above | below
  · refine neighbours (whole + 1) (.inr rfl) (by omega) (Nat.le_antisymm ((order above).trans_eq reads) ?_)
    exact le_roundDecimal (d := ⟨whole + 1, exponent⟩) pos le high.le
  · refine neighbours whole (.inl rfl) ?_ (Nat.le_antisymm ?_ (reads.symm.trans_le (order below)))
    · have := digits_ne_zero pos reads
      rintro rfl
      omega
    · exact roundDecimal_le (d := ⟨whole, exponent⟩) pos le low

/-! ### The shortest decimal -/

/-- The search stops on the coarsest grid that has a point for the code. -/
lemma exponent_le_shortestFrom (pos : 0 < code) (le : code ≤ f.infinity) (steps : Nat)
    (coarser : ∀ d : Decimal, f.roundDecimal d.digits d.exponent = code → d.exponent ≤ steps - f.unitBits)
    (d : Decimal) (reads : f.roundDecimal d.digits d.exponent = code) :
    d.exponent ≤ (f.shortestFrom code steps).exponent := by
  induction steps with
  | zero => simpa [shortestFrom] using coarser d reads
  | succ steps ih =>
    unfold shortestFrom
    simp only
    split
    · exact_mod_cast coarser d reads
    · rename_i none
      refine ih fun other reads => ?_
      have bound := coarser other reads
      have off : other.exponent ≠ (steps + 1 : Int) - f.unitBits := fun same =>
        ne_of_gridPoint?_eq_none pos le none other.digits (same ▸ reads)
      push_cast at bound
      omega

/-- The next value is at most twice as great. -/
lemma units_succ_le (pos : 0 < code) : f.units (code + 1) ≤ 2 * f.units code := by
  rcases f.exists_shift code with low | ⟨s, m, lo, hi, rfl⟩
  · rw [f.units_of_lt (by omega), f.units_of_lt (by omega)]
    omega
  · rw [f.units_shift_succ s lo hi, f.units_shift s lo hi]
    have := Nat.mul_le_mul_right (2 ^ s) (show m + 1 ≤ 2 * m by have := Nat.two_pow_pos f.fractionBits; omega)
    linarith

/-- A value has as many digits before its point as its whole part. -/
lemma value_lt_pow (f : Format) (code : Nat) :
    f.value code < (10 : ℚ) ^ decimalLength (f.units code / 2 ^ f.unitBits) := by
  have whole := lt_pow_decimalLength (f.units code / 2 ^ f.unitBits)
  have units := (Nat.div_lt_iff_lt_mul (Nat.two_pow_pos f.unitBits)).1 whole
  unfold value
  rw [div_lt_iff₀ (by positivity)]
  exact_mod_cast units

/-- The search starts on a grid that is coarse enough: no point of a coarser one reads back. -/
lemma exponent_le_decimalLength (pos : 0 < code) (lt : code < f.infinity) (d : Decimal)
    (reads : f.roundDecimal d.digits d.exponent = code) :
    d.exponent ≤ decimalLength (f.units code / 2 ^ f.unitBits) := by
  by_contra coarse
  have digits : 1 ≤ d.digits := Nat.pos_of_ne_zero (digits_ne_zero pos reads)
  -- the decimal would be ten times the value, and twice the value already rounds to the next code
  have great : f.value (code + 1) ≤ d.value := by
    have next : f.value (code + 1) ≤ 2 * f.value code := by
      unfold value
      rw [← mul_div_assoc]
      exact div_le_div_of_nonneg_right (by exact_mod_cast units_succ_le pos) (by positivity)
    have power : (10 : ℚ) ^ decimalLength (f.units code / 2 ^ f.unitBits) * 10 ≤ 10 ^ d.exponent := by
      rw [← pow_succ, ← zpow_natCast]
      exact zpow_le_zpow_right₀ (by norm_num) (by push_cast; omega)
    have point : (10 : ℚ) ^ d.exponent ≤ d.value := le_mul_of_one_le_left (by positivity) (by exact_mod_cast digits)
    have := f.value_lt_pow code
    have : (0 : ℚ) < 10 ^ decimalLength (f.units code / 2 ^ f.unitBits) := by positivity
    linarith
  have := le_roundDecimal (f := f) (Nat.succ_pos code) lt great
  omega

/-- Between a decimal and one with fewer digits, on a grid that is no coarser, lies a power of ten, on a coarser grid. -/
lemma exists_between_of_fewer {d other : Decimal} (nonzero : d.digits ≠ 0)
    (fewer : decimalLength other.digits < decimalLength d.digits) (finer : other.exponent ≤ d.exponent) :
    ∃ point : Decimal, other.value ≤ point.value ∧ point.value ≤ d.value ∧ d.exponent < point.exponent := by
  have some : 0 < decimalLength other.digits := Nat.length_toDigits_pos
  have upper : 10 ^ (decimalLength d.digits - 1) ≤ d.digits := pow_pred_decimalLength_le nonzero
  have lower : other.digits < 10 ^ (decimalLength d.digits - 1) :=
    (lt_pow_decimalLength other.digits).trans_le (Nat.pow_le_pow_right (by decide) (by omega))
  let point : Decimal := ⟨1, d.exponent + (decimalLength d.digits - 1 : Nat)⟩
  have value : point.value = ((10 ^ (decimalLength d.digits - 1) : Nat) : ℚ) * 10 ^ d.exponent := by
    simp only [point, Decimal.value, zpow_add₀ (show (10 : ℚ) ≠ 0 by norm_num), zpow_natCast]
    push_cast
    ring
  refine ⟨point, ?_, ?_, by simp only [point]; omega⟩
  · rw [value]
    unfold Decimal.value
    refine mul_le_mul (by exact_mod_cast lower.le) ?_ (by positivity) (by positivity)
    exact zpow_le_zpow_right₀ (by norm_num) finer
  · rw [value]
    exact mul_le_mul_of_nonneg_right (by exact_mod_cast upper) (by positivity)

/-- The decimal that the search finds is a shortest one. -/
theorem shortest_isShortest (pos : 0 < code) (lt : code < f.infinity) : f.Shortest code (f.shortest code) := by
  have reads := roundDecimal_shortest (f := f) pos lt
  have coarsest : ∀ d : Decimal, f.roundDecimal d.digits d.exponent = code →
      d.exponent ≤ (f.shortest code).exponent :=
    exponent_le_shortestFrom pos lt.le _ fun d reads => by
      have := exponent_le_decimalLength pos lt d reads
      push_cast
      omega
  refine ⟨reads, fun other reads' => ?_⟩
  generalize f.shortest code = d at reads coarsest
  by_contra fewer
  obtain ⟨point, below, above, coarser⟩ :=
    exists_between_of_fewer (digits_ne_zero pos reads) (Nat.lt_of_not_le fewer) (coarsest other reads')
  -- what lies between two decimals that read back reads back
  have between : f.roundDecimal point.digits point.exponent = code :=
    Nat.le_antisymm ((roundDecimal_mono above).trans_eq reads) (reads'.symm.trans_le (roundDecimal_mono below))
  have := coarsest point between
  omega

/-! ### Significant digits -/

/-- A ratio that is off by half a unit of its last place, and that has more units than a value has fractions, is near to
the value. -/
lemma near_of_half_unit {num den : Nat} (unit : Nat) (pos : 0 < code) (den_pos : 0 < den)
    (close : |(num : ℚ) / den - f.value code| ≤ (unit : ℚ) / den / 2) (unit_pos : 0 < unit)
    (enough : (2 * 2 ^ f.fractionBits + 1) * unit ≤ num) : f.Near num den code := by
  obtain ⟨low, high⟩ := abs_le.1 close
  have den_pos' : (0 : ℚ) < den := by exact_mod_cast den_pos
  have power : (0 : ℚ) < 2 ^ f.unitBits := by positivity
  have scale : (0 : ℚ) ≤ 2 * (den * 2 ^ f.unitBits) := by positivity
  have units : f.value code * (2 * (den * 2 ^ f.unitBits)) = 2 * (den * f.units code) := by
    unfold value
    field_simp
  have ratio : (num : ℚ) / den * (2 * (den * 2 ^ f.unitBits)) = 2 * (num * 2 ^ f.unitBits) := by field_simp
  have error : (unit : ℚ) / den / 2 * (2 * (den * 2 ^ f.unitBits)) = unit * 2 ^ f.unitBits := by field_simp
  have low := mul_le_mul_of_nonneg_right low scale
  have high := mul_le_mul_of_nonneg_right high scale
  rw [neg_mul, sub_mul, units, ratio, error] at low
  rw [sub_mul, units, ratio, error] at high
  have below : 2 * (den * f.units code) ≤ 2 * (num * 2 ^ f.unitBits) + unit * 2 ^ f.unitBits := by
    have : (2 * (den * f.units code) : ℚ) ≤ 2 * (num * 2 ^ f.unitBits) + unit * 2 ^ f.unitBits := by linarith
    exact_mod_cast this
  have above : 2 * (num * 2 ^ f.unitBits) ≤ 2 * (den * f.units code) + unit * 2 ^ f.unitBits := by
    have : (2 * (num * 2 ^ f.unitBits) : ℚ) ≤ 2 * (den * f.units code) + unit * 2 ^ f.unitBits := by linarith
    exact_mod_cast this
  refine near_of_close pos below above ?_
  have wide := Nat.mul_le_mul_right (2 ^ f.unitBits) enough
  have error_pos : 0 < unit * 2 ^ f.unitBits := Nat.mul_pos unit_pos (Nat.two_pow_pos _)
  linarith

/-- Every rounding to enough significant digits reads back. -/
theorem Rounded.reads {count : Nat} {d : Decimal} (rounded : f.Rounded count code d) (pos : 0 < code)
    (lt : code < f.infinity) (enough : 2 * 2 ^ f.fractionBits < 10 ^ (count - 1)) :
    f.roundDecimal d.digits d.exponent = code := by
  refine NearDecimal.roundDecimal (d := d) ?_ pos lt
  obtain ⟨least, -, close⟩ := rounded
  obtain ⟨digits, exponent⟩ := d
  have many : 2 * 2 ^ f.fractionBits + 1 ≤ digits := enough.trans_le least
  unfold Decimal.value at close
  cases exponent with
  | ofNat e =>
    refine near_of_half_unit (10 ^ e) pos one_pos ?_ (Nat.pos_of_neZero _) (Nat.mul_le_mul_right _ many)
    simpa using close
  | negSucc e =>
    refine near_of_half_unit 1 pos (Nat.pos_of_neZero _) ?_ one_pos (by simpa using many)
    simpa [div_eq_mul_inv] using close

/-- Rounding goes to one of the two neighbours. -/
lemma roundHalfEven_bounds (num den : Nat) :
    num / den ≤ roundHalfEven num den ∧ roundHalfEven num den ≤ num / den + 1 := by
  unfold roundHalfEven
  simp only
  split_ifs <;> omega

/-- The rounding of a value on a grid is off by half a unit of the grid at most. -/
lemma roundHalfEven_value (f : Format) (code : Nat) (exponent : Int) :
    |Decimal.value ⟨roundHalfEven (f.overPower code exponent).1 (f.overPower code exponent).2, exponent⟩ -
      f.value code| ≤ (10 : ℚ) ^ exponent / 2 := by
  obtain ⟨pos, ratio⟩ := f.overPower_ratio code exponent
  obtain ⟨low, high⟩ := roundHalfEven_close (f.overPower code exponent).1 pos
  unfold Decimal.value
  rw [← ratio, ← sub_mul, abs_mul, abs_of_pos (show (0 : ℚ) < 10 ^ exponent by positivity)]
  generalize roundHalfEven (f.overPower code exponent).1 (f.overPower code exponent).2 = digits at low high ⊢
  generalize (f.overPower code exponent).1 = num at low high ⊢
  generalize (f.overPower code exponent).2 = den at pos low high ⊢
  have pos' : (0 : ℚ) < den := by exact_mod_cast pos
  have low : (2 * num : ℚ) ≤ 2 * (den * digits) + den := by exact_mod_cast low
  have high : (2 * (den * digits) : ℚ) ≤ 2 * num + den := by exact_mod_cast high
  have upper : (num : ℚ) / den ≤ digits + 1 / 2 := (div_le_iff₀ pos').2 (by linarith)
  have lower : (digits : ℚ) - 1 / 2 ≤ num / den := (le_div_iff₀ pos').2 (by linarith)
  have half : |(digits : ℚ) - num / den| ≤ 1 / 2 := abs_le.2 ⟨by linarith, by linarith⟩
  have power : (0 : ℚ) ≤ 10 ^ exponent := by positivity
  linarith [mul_le_mul_of_nonneg_right half power]

/-- A power of ten on a grid is the power below it on the next coarser grid. -/
lemma pow_pred_mul {count : Nat} (count_pos : 0 < count) (exponent : Int) :
    (10 : ℚ) ^ (count - 1) * 10 ^ (exponent + 1) = 10 ^ count * 10 ^ exponent := by
  obtain ⟨k, rfl⟩ := Nat.exists_eq_add_one_of_ne_zero count_pos.ne'
  rw [Nat.add_sub_cancel, zpow_add_one₀ (by norm_num), pow_succ]
  ring

/-- On the finest grid the value is a point. -/
lemma value_finest (f : Format) (code : Nat) :
    Decimal.value ⟨f.units code * 5 ^ f.unitBits, -(f.unitBits : Int)⟩ = f.value code := by
  unfold Decimal.value value
  rw [zpow_neg, zpow_natCast, show (10 : ℚ) = 2 * 5 by norm_num, mul_pow]
  push_cast
  field_simp

/-- On a grid on which a value has the digits that are asked for, the point next to it is the value rounded to them. -/
lemma rounded_grid {count : Nat} (count_pos : 0 < count) (exponent : Int)
    (enough : 10 ^ (count - 1) ≤ (f.overPower code exponent).1 / (f.overPower code exponent).2)
    (few : (f.overPower code exponent).1 / (f.overPower code exponent).2 < 10 ^ count) :
    f.Rounded count code
      (if roundHalfEven (f.overPower code exponent).1 (f.overPower code exponent).2 = 10 ^ count
        then ⟨10 ^ (count - 1), exponent + 1⟩
        else ⟨roundHalfEven (f.overPower code exponent).1 (f.overPower code exponent).2, exponent⟩) := by
  have close := f.roundHalfEven_value code exponent
  obtain ⟨down, up⟩ := roundHalfEven_bounds (f.overPower code exponent).1 (f.overPower code exponent).2
  split
  · -- rounding up gave a power of ten, which has the digits of the power below it
    rename_i full
    have same : Decimal.value ⟨10 ^ (count - 1), exponent + 1⟩ = Decimal.value ⟨10 ^ count, exponent⟩ := by
      unfold Decimal.value
      push_cast
      exact pow_pred_mul count_pos exponent
    have coarser : (10 : ℚ) ^ exponent ≤ 10 ^ (exponent + 1) := zpow_le_zpow_right₀ (by norm_num) (by omega)
    refine ⟨le_rfl, Nat.pow_lt_pow_right (by decide) (by omega), ?_⟩
    rw [same, ← full]
    exact close.trans (div_le_div_of_nonneg_right coarser (by norm_num))
  · rename_i short
    exact ⟨enough.trans down, Nat.lt_of_le_of_ne (up.trans few) short, close⟩

/-- What the search for a grid with enough digits keeps: on the grid that it tries next, the value has no more digits
than are asked for. -/
lemma rounded_significantFrom {count : Nat} (count_pos : 0 < count)
    (fine : 10 ^ (count - 1) ≤ f.units code * 5 ^ f.unitBits) (steps : Nat)
    (small : f.value code < (10 : ℚ) ^ count * 10 ^ ((steps : Int) - f.unitBits)) :
    f.Rounded count code (f.significantFrom count code steps) := by
  induction steps with
  | zero =>
    have most : f.units code * 5 ^ f.unitBits < 10 ^ count := by
      rw [← f.value_finest, Decimal.value, Nat.cast_zero, zero_sub] at small
      exact_mod_cast lt_of_mul_lt_mul_right small (by positivity)
    refine ⟨fine, most, ?_⟩
    unfold significantFrom
    rw [f.value_finest, sub_self, abs_zero]
    positivity
  | succ steps ih =>
    obtain ⟨pos, ratio⟩ := f.overPower_ratio code ((steps + 1 : Int) - f.unitBits)
    have power : (0 : ℚ) < 10 ^ ((steps + 1 : Int) - f.unitBits) := by positivity
    push_cast at small
    unfold significantFrom
    simp only
    split
    · rename_i few
      refine ih ?_
      have next : (steps + 1 : Int) - f.unitBits = ((steps : Int) - f.unitBits) + 1 := by ring
      rw [← pow_pred_mul count_pos, ← next, ← ratio]
      refine mul_lt_mul_of_pos_right ((div_lt_iff₀ (by exact_mod_cast pos)).2 ?_) power
      exact_mod_cast (Nat.div_lt_iff_lt_mul pos).1 few
    · rename_i enough
      refine rounded_grid count_pos _ (Nat.le_of_not_lt enough) ?_
      rw [← ratio] at small
      have := (div_lt_iff₀ (by exact_mod_cast pos)).1 (lt_of_mul_lt_mul_right small power.le)
      exact (Nat.div_lt_iff_lt_mul pos).2 (by exact_mod_cast this)

/-- The decimal of a count of significant digits is the value rounded to them. -/
theorem significant_rounded {count : Nat} (count_pos : 0 < count)
    (fine : 10 ^ (count - 1) ≤ f.units code * 5 ^ f.unitBits) : f.Rounded count code (f.significant count code) := by
  refine rounded_significantFrom count_pos fine _ ((f.value_lt_pow code).trans_le ?_)
  push_cast
  rw [add_sub_cancel_right, zpow_natCast]
  exact le_mul_of_one_le_left (by positivity) (one_le_pow₀ (by norm_num))

end FeatureLines.Number.Format

namespace FeatureLines.FloatFormat

open Number

/-- The layout of a decimal in a format. -/
def layout : FloatFormat → Decimal → String
  | compact, d => d.positional 0
  | scientific, d => d.exponential

/-- The decimals that a format may write for a positive finite weight. -/
def Writes : FloatFormat → Nat → Decimal → Prop
  | compact, code, d => Format.single.Shortest code d
  | scientific, code, d => Format.single.Rounded 9 code d

/-- A weight is read back from its text. -/
lemma read_text (format : FloatFormat) {weight : Single} (number : weight.isNan = false) :
    Binary.read .single (format.text weight).toList = .ok weight := by
  cases format with
  | compact => exact Binary.read_positional number
  | scientific => exact Binary.read_scientific number (by decide)

variable {code : Nat} {d : Decimal}

lemma Writes.reads {format : FloatFormat} (writes : format.Writes code d) (pos : 0 < code)
    (lt : code < Format.single.infinity) : Format.single.roundDecimal d.digits d.exponent = code := by
  cases format with
  | compact => exact Format.Shortest.reads writes
  | scientific => exact Format.Rounded.reads writes pos lt (by decide)

lemma startsWithDigit_layout (format : FloatFormat) (d : Decimal) :
    Binary.StartsWithDigit (format.layout d).toList := by
  cases format with
  | compact => exact d.startsWithDigit_positional
  | scientific => exact d.startsWithDigit_exponential

/-- The layout of a decimal that reads back as a code is a literal for the code. -/
lemma read?_layout (format : FloatFormat) (pos : 0 < code) (lt : code < Format.single.infinity)
    (reads : Format.single.roundDecimal d.digits d.exponent = code) :
    ∃ literal, DecimalLiteral.read? (format.layout d).toList = some literal ∧
      Format.single.roundDecimal literal.digits literal.exponent = code := by
  cases format with
  | compact => exact Binary.read?_positional_rounds pos lt reads
  | scientific => exact ⟨_, Decimal.read?_exponential d, reads⟩

/-- A format writes one of its decimals for every positive finite weight. -/
lemma exists_writes (format : FloatFormat) (negative : Bool) (code : Fin (Format.single.infinity + 1))
    (pos : 0 < code.val) (lt : code.val < Format.single.infinity) :
    ∃ d, format.Writes code d ∧
      format.text (.signed negative code) = (if negative then "-" else "") ++ format.layout d := by
  cases format with
  | compact =>
    refine ⟨Format.single.shortest code, Format.shortest_isShortest pos lt, ?_⟩
    simp only [text, Binary.positional, Binary.textBy, layout, if_neg lt.ne, if_neg pos.ne']
  | scientific =>
    have units : 1 ≤ Format.single.units code := by
      have := Format.single.units_strictMono pos
      omega
    have fine : 10 ^ (9 - 1) ≤ Format.single.units code * 5 ^ Format.single.unitBits :=
      (show 10 ^ (9 - 1) ≤ 5 ^ Format.single.unitBits by decide).trans (Nat.le_mul_of_pos_left _ units)
    refine ⟨Format.single.significant 9 code, Format.significant_rounded (by decide) fine, ?_⟩
    simp only [text, Binary.scientific, Binary.textBy, layout, if_neg lt.ne, if_neg pos.ne']

/-- Weights survive their texts: in both formats a weight that is not NaN is read back, sign and all. For a finite weight
other than zero the text is a layout of a decimal that the format may write, the shortest one or the value rounded to nine
significant digits, and whichever such decimal is written, it is read back. -/
theorem survives (format : FloatFormat) {x : Single} (number : x.isNan = false) :
    Binary.read .single (format.text x).toList = .ok x ∧
      ∀ negative code, x = .signed negative code → 0 < code.val → code.val < Format.single.infinity →
        (∃ d, format.Writes code d ∧ format.text x = (if negative then "-" else "") ++ format.layout d) ∧
        ∀ d, format.Writes code d →
          Binary.read .single ((if negative then "-" else "") ++ format.layout d).toList = .ok x := by
  refine ⟨format.read_text number, ?_⟩
  rintro negative code rfl pos lt
  refine ⟨format.exists_writes negative code pos lt, fun d writes => ?_⟩
  obtain ⟨literal, read, rounds⟩ := format.read?_layout pos lt (writes.reads pos lt)
  rw [String.toList_append, Binary.read_sign_digit negative (format.startsWithDigit_layout d)]
  exact Binary.readUnsigned_of_literal negative code read rounds

/-- The least negative weight, in nine digits. -/
theorem survives_least :
    (Binary.signed true 1 : Single).isNan = false ∧ scientific.text (.signed true 1) = "-1.40129846e-45" ∧
      Binary.read .single (scientific.text (.signed true 1)).toList = .ok (.signed true 1) :=
  ⟨rfl, by decide +kernel, (survives scientific rfl).1⟩

/-- One digit less does not tell all weights apart. -/
example : Format.single.significant 8 1148846081 = Format.single.significant 8 1148846082 := by decide +kernel

end FeatureLines.FloatFormat
