/-!
# Binary interchange formats

The nonnegative values of a binary floating-point format, in increasing order, are numbered by their bit patterns
without the sign: the *magnitude codes*. Code `0` is zero, code `1` the least positive value (one *unit*), and after the
greatest finite value comes infinity. Every finite value is a whole number of units, so `units` turns a code into a
natural number, and the arithmetic on formats is exact arithmetic on natural numbers.

`Format.nearest` is the one rounding of the library: from a ratio to the code of the nearest value, a tie going to the
even code.
-/

namespace FeatureLines.Number

/-- Powers are those of the core library, also where other instances for them are known. -/
scoped instance (priority := high) natPower : Pow Nat Nat := instPowNat

/-- A format has a fraction of some bits and an exponent of some bits. -/
structure Format where
  fractionBits : Nat
  exponentBits : Nat
deriving DecidableEq, Repr

namespace Format

def single : Format := ⟨23, 8⟩

def double : Format := ⟨52, 11⟩

/-- The code of infinity: an exponent of all ones and an empty fraction. -/
def infinity (f : Format) : Nat := (2 ^ f.exponentBits - 1) * 2 ^ f.fractionBits

/-- One is `2 ^ unitBits` units. -/
def unitBits (f : Format) : Nat := 2 ^ (f.exponentBits - 1) - 2 + f.fractionBits

/-- How many units the value of a code is: the fraction itself in the lowest binade, else the fraction with its leading
one, shifted by the exponent. -/
def units (f : Format) (code : Nat) : Nat :=
  if code < 2 ^ f.fractionBits then code
  else (2 ^ f.fractionBits + code % 2 ^ f.fractionBits) * 2 ^ (code / 2 ^ f.fractionBits - 1)

/-- The greatest code whose value is at most `t` units, were there no greatest exponent. -/
def codeBelow (f : Format) (t : Nat) : Nat :=
  let shift := t.log2 - f.fractionBits
  shift * 2 ^ f.fractionBits + t / 2 ^ shift

/-- The code of the value nearest to `num / den`. Halfway between two values the even code wins, and from halfway past
the greatest finite value on the result is infinity. -/
def nearest (f : Format) (num den : Nat) : Nat :=
  let scaled := num * 2 ^ f.unitBits
  let code := f.codeBelow (scaled / den)
  let middle := den * (f.units code + f.units (code + 1))
  min f.infinity (if 2 * scaled < middle then code else if middle < 2 * scaled then code + 1 else code + code % 2)

theorem nearest_le (f : Format) (num den : Nat) : f.nearest num den ≤ f.infinity := Nat.min_le_left ..

end Format

end FeatureLines.Number
