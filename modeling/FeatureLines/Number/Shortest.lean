import FeatureLines.Number.Decimal

/-!
# Decimals for a floating-point value

Two ways to choose a decimal `digits * 10 ^ exponent` for the positive value of a magnitude code.

* `Format.shortest` takes the coarsest decimal grid that has a point which reads back as the code, and on it the nearest
  such point, a tie going up. On the finest grid the value itself is a point, so there is always an answer.
* `Format.significant` rounds to a count of significant digits, a tie going to the even digit.

`Format.fixed` rounds to a count of decimal places in the same way.
-/

namespace FeatureLines.Number

/-- A decimal: `digits * 10 ^ exponent`. -/
structure Decimal where
  digits : Nat
  exponent : Int
deriving DecidableEq, Repr

/-- A ratio rounded to the nearest natural number, a tie going to the even one. -/
def roundHalfEven (num den : Nat) : Nat :=
  let low := num / den
  let rest := 2 * (num % den)
  if rest < den then low else if den < rest then low + 1 else low + low % 2

namespace Format

/-- The value of a code over `10 ^ exponent`, as a ratio. -/
def overPower (f : Format) (code : Nat) (exponent : Int) : Nat × Nat :=
  match exponent with
  | .ofNat e => (f.units code, 2 ^ f.unitBits * 10 ^ e)
  | .negSucc e => (f.units code * 10 ^ (e + 1), 2 ^ f.unitBits)

/-- The point of the grid of multiples of `10 ^ exponent` that is nearest to a code's value among its two neighbours that
read back as the code. -/
def gridPoint? (f : Format) (code : Nat) (exponent : Int) : Option Nat :=
  let (num, den) := f.overPower code exponent
  let low := num / den
  let readsBack (n : Nat) : Bool := n != 0 && f.roundDecimal n exponent == code
  match readsBack low, readsBack (low + 1) with
  | true, true => some (if 2 * (num % den) < den then low else low + 1)
  | true, false => some low
  | false, true => some (low + 1)
  | false, false => none

/-- The number of decimal digits of a natural number. -/
def decimalLength (n : Nat) : Nat := (Nat.toDigits 10 n).length

/-- Goes from the grid of multiples of `10 ^ (steps - unitBits)` to finer ones until one has a point for the code. -/
def shortestFrom (f : Format) (code : Nat) : Nat → Decimal
  | 0 => ⟨f.units code * 5 ^ f.unitBits, -(f.unitBits : Int)⟩
  | steps + 1 =>
    let exponent := (steps + 1 : Int) - f.unitBits
    match f.gridPoint? code exponent with
    | some digits => ⟨digits, exponent⟩
    | none => f.shortestFrom code steps

/-- The decimal with the fewest digits that reads back as a positive finite code, the nearest of those. -/
def shortest (f : Format) (code : Nat) : Decimal :=
  f.shortestFrom code (decimalLength (f.units code / 2 ^ f.unitBits) + f.unitBits)

/-- Goes to finer grids until the value has at least as many digits as `10 ^ (count - 1)`, and rounds there. -/
def significantFrom (f : Format) (count code : Nat) : Nat → Decimal
  | 0 => ⟨f.units code * 5 ^ f.unitBits, -(f.unitBits : Int)⟩
  | steps + 1 =>
    let exponent := (steps + 1 : Int) - f.unitBits
    let (num, den) := f.overPower code exponent
    if num / den < 10 ^ (count - 1) then f.significantFrom count code steps
    else
      let digits := roundHalfEven num den
      if digits = 10 ^ count then ⟨10 ^ (count - 1), exponent + 1⟩ else ⟨digits, exponent⟩

/-- A positive finite code's value rounded to `count` significant digits. -/
def significant (f : Format) (count code : Nat) : Decimal :=
  f.significantFrom count code (decimalLength (f.units code / 2 ^ f.unitBits) + f.unitBits)

/-- A finite code's value rounded to `places` decimal places. -/
def fixed (f : Format) (places code : Nat) : Decimal :=
  ⟨roundHalfEven (f.units code * 10 ^ places) (2 ^ f.unitBits), -(places : Int)⟩

end Format

end FeatureLines.Number
