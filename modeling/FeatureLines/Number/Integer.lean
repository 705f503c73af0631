import FeatureLines.Number.Format

/-!
# Reading integers

Integers are read digit by digit from the left, and the first thing that goes wrong is the error: a character that is no
digit, or the digit with which the value leaves its range. A character that is no digit wins over the range it would
also have left. Only signed ranges take a minus sign.
-/

namespace FeatureLines.Number

/-- Why a text is not an integer of a range. -/
inductive IntegerError where
  | empty
  | invalidDigit
  | tooLarge
  | tooSmall
deriving DecidableEq, Repr

def IntegerError.message : IntegerError → String
  | empty => "cannot parse integer from empty string"
  | invalidDigit => "invalid digit found in string"
  | tooLarge => "number too large to fit in target type"
  | tooSmall => "number too small to fit in target type"

/-- Reads decimal digits onto `value`, which may not pass `limit`; `overflow` is the error when it does. -/
def readDigits (limit : Nat) (overflow : IntegerError) (value : Nat) : List Char → Except IntegerError Nat
  | [] => .ok value
  | c :: rest =>
    if c.isDigit then
      let next := 10 * value + (c.toNat - '0'.toNat)
      if limit < next then .error overflow else readDigits limit overflow next rest
    else .error .invalidDigit

/-- A natural number up to `limit`, with an optional plus sign. -/
def readNat (limit : Nat) (s : List Char) : Except IntegerError Nat :=
  match s with
  | [] => .error .empty
  | ['+'] => .error .invalidDigit
  | '+' :: rest => readDigits limit .tooLarge 0 rest
  | _ => readDigits limit .tooLarge 0 s

/-- An integer of a two's complement range of some bits, with an optional sign. -/
def readInt (bits : Nat) (s : List Char) : Except IntegerError Int :=
  match s with
  | [] => .error .empty
  | ['-'] => .error .invalidDigit
  | '-' :: rest => (readDigits (2 ^ (bits - 1)) .tooSmall 0 rest).map fun n => -(n : Int)
  | _ => (readNat (2 ^ (bits - 1) - 1) s).map Int.ofNat

end FeatureLines.Number
