import FeatureLines.Number.Shortest

/-!
# Number texts

The texts of floating-point numbers. `positional` is the shortest decimal without an exponent, `precise` the shortest
decimal with at least one place and with an exponent when the number is very large or very small, `scientific` a fixed
count of significant digits with an exponent, and `fixedPlaces` a fixed count of places. All of them write NaN and the
infinities as words and keep the sign of a negative zero.
-/

namespace FeatureLines.Number

namespace Decimal

def digitChars (d : Decimal) : List Char := Nat.toDigits 10 d.digits

/-- Writes a decimal without an exponent, with at least `minPlaces` places. -/
def positional (minPlaces : Nat) (d : Decimal) : String :=
  let padding (places : Nat) : String := if places = 0 then "" else "." ++ "".pushn '0' places
  match d.exponent with
  | .ofNat e => String.ofList d.digitChars ++ (if d.digits = 0 then "" else "".pushn '0' e) ++ padding minPlaces
  | .negSucc e =>
    let places := e + 1
    let digits := List.replicate (places + 1 - d.digitChars.length) '0' ++ d.digitChars
    let whole := digits.take (digits.length - places)
    let fraction := digits.drop (digits.length - places)
    String.ofList whole ++ "." ++ String.ofList (fraction ++ List.replicate (minPlaces - places) '0')

/-- Writes a decimal with one digit before the point and an exponent. -/
def exponential (d : Decimal) : String :=
  match d.digitChars with
  | [] => ""
  | first :: rest =>
    let places := if rest.isEmpty then "" else "." ++ String.ofList rest
    String.singleton first ++ places ++ "e" ++ toString (d.exponent + rest.length)

end Decimal

namespace Binary

variable {f : Format}

/-- The text of a number whose finite magnitudes are written by `finite`. -/
def textBy (finite : Nat → String) : Binary f → String
  | nan => "NaN"
  | signed negative code =>
    (if negative then "-" else "") ++ (if code.val = f.infinity then "inf" else finite code.val)

/-- The shortest decimal that reads back, without an exponent. -/
def positional : Binary f → String :=
  textBy fun code => if code = 0 then "0" else (f.shortest code).positional 0

/-- A `precise` text has an exponent from the number nearest to `10 ^ 16` on, and below the number nearest to
`10 ^ (-4)`. -/
def needsExponent (f : Format) (code : Nat) : Bool :=
  f.nearest (10 ^ (16 : Nat)) 1 ≤ code || code < f.nearest 1 (10 ^ (4 : Nat))

/-- The shortest decimal that reads back, with a place after the point or with an exponent. -/
def precise : Binary f → String :=
  textBy fun code =>
    if code = 0 then "0.0"
    else if needsExponent f code then (f.shortest code).exponential
    else (f.shortest code).positional 1

/-- Nine significant digits and an exponent. -/
def scientific : Binary f → String :=
  textBy fun code => if code = 0 then "0.00000000e0" else (f.significant 9 code).exponential

def fixedPlaces (places : Nat) : Binary f → String :=
  textBy fun code => (f.fixed places code).positional places

end Binary

end FeatureLines.Number
