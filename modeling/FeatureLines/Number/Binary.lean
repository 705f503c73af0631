import FeatureLines.Number.Format

/-!
# Binary floating-point numbers

A number of a format is either not a number or a sign with a magnitude code. There is one NaN: which of its bit patterns
is meant can never be seen. Comparison, conversion between formats and multiplication are exact computations on units
followed by one rounding.
-/

namespace FeatureLines.Number

/-- A floating-point number: NaN, or a sign and the code of a magnitude up to infinity. -/
inductive Binary (f : Format) where
  | nan
  | signed (negative : Bool) (code : Fin (f.infinity + 1))
deriving DecidableEq

/-- Numbers of 32 bits, the weights of the engine. -/
abbrev Single := Binary .single

/-- Numbers of 64 bits, the weights that marshallers compute. -/
abbrev Double := Binary .double

namespace Binary

variable {f g : Format}

/-- The number with a sign nearest to a ratio of natural numbers. -/
def ofRatio (f : Format) (negative : Bool) (num den : Nat) : Binary f :=
  .signed negative ⟨f.nearest num den, Nat.lt_succ_of_le (f.nearest_le num den)⟩

/-- The number nearest to an integer; the integer zero is the positive zero. -/
def ofInt (f : Format) (i : Int) : Binary f := ofRatio f (decide (i < 0)) i.natAbs 1

/-- Infinity with a sign. -/
def infinite (f : Format) (negative : Bool) : Binary f := .signed negative (Fin.last _)

def zero (f : Format) : Binary f := .signed false 0

def one (f : Format) : Binary f := ofInt f 1

/-- The bit pattern, except for NaN. -/
def bits? : Binary f → Option Nat
  | nan => none
  | signed negative code => some ((if negative then 2 ^ (f.exponentBits + f.fractionBits) else 0) + code.val)

def isNan : Binary f → Bool
  | nan => true
  | signed .. => false

/-- Either zero. -/
def isZero : Binary f → Bool
  | nan => false
  | signed _ code => code.val == 0

def isInfinite : Binary f → Bool
  | nan => false
  | signed _ code => code.val == f.infinity

def isFinite : Binary f → Bool
  | nan => false
  | signed _ code => code.val != f.infinity

/-- Greater than zero. -/
def isPositive : Binary f → Bool
  | nan => false
  | signed negative code => !negative && code.val != 0

/-- Equality of numbers: NaN differs from everything, and the two zeros are equal. -/
def eqNumber : Binary f → Binary f → Bool
  | signed n c, signed m d => c == d && (n == m || c.val == 0)
  | _, _ => false

/-- The place of a number in the total order that separates the two zeros and puts NaN last. -/
def orderKey : Binary f → Int
  | nan => f.infinity + 1
  | signed false code => code.val
  | signed true code => -(code.val : Int) - 1

/-- The nearest number of another format. -/
def convert (g : Format) : Binary f → Binary g
  | nan => nan
  | signed negative code =>
    if code.val = f.infinity then infinite g negative else ofRatio g negative (f.units code.val) (2 ^ f.unitBits)

/-- The product, rounded once. Infinity times zero is not a number. -/
def mul : Binary f → Binary f → Binary f
  | signed n c, signed m d =>
    if c.val = f.infinity ∨ d.val = f.infinity then
      if c.val = 0 ∨ d.val = 0 then nan else infinite f (n != m)
    else ofRatio f (n != m) (f.units c.val * f.units d.val) (2 ^ (2 * f.unitBits))
  | _, _ => nan

end Binary

end FeatureLines.Number
