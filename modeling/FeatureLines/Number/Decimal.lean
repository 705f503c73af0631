import FeatureLines.Number.Binary

/-!
# Reading decimals

A decimal literal is an optional sign and either digits with an optional point and an optional exponent, or one of the
words `inf`, `infinity` and `nan` in any letter case. It stands for the number nearest to it.

`roundDecimal` gives that number's code for `digits * 10 ^ exponent`. It leaves exponents alone that are so large or so
small that the answer is infinity or zero whatever the digits are.
-/

namespace FeatureLines.Number

/-- Why a text is not a decimal literal. -/
inductive DecimalError where
  | empty
  | malformed
deriving DecidableEq, Repr

def DecimalError.message : DecimalError → String
  | empty => "cannot parse float from empty string"
  | malformed => "invalid float literal"

def digitValue (c : Char) : Nat := c.toNat - '0'.toNat

/-- The natural number written by decimal digits. -/
def ofDigits (digits : List Char) : Nat := digits.foldl (fun n c => 10 * n + digitValue c) 0

/-- The code of the value nearest to `digits * 10 ^ exponent`. -/
def Format.roundDecimal (f : Format) (digits : Nat) (exponent : Int) : Nat :=
  if digits = 0 then 0
  else
    match exponent with
    | .ofNat e => if 2 ^ f.exponentBits ≤ e then f.infinity else f.nearest (digits * 10 ^ e) 1
    | .negSucc e => if digits.log2 + f.unitBits + 1 ≤ e then 0 else f.nearest digits (10 ^ (e + 1))

/-- The digits and the exponent of an unsigned literal that is not a word. -/
structure DecimalLiteral where
  digits : Nat
  exponent : Int
deriving DecidableEq, Repr

/-- An exponent after its `e`: an optional sign and at least one digit, to the end. -/
def readExponent (s : List Char) : Option Int :=
  let (negative, s) := match s with
    | '-' :: rest => (true, rest)
    | '+' :: rest => (false, rest)
    | _ => (false, s)
  if s.isEmpty || !s.all Char.isDigit then none
  else some (if negative then -(ofDigits s : Int) else ofDigits s)

/-- Digits with an optional point and an optional exponent. There is a digit before the exponent. -/
def DecimalLiteral.read? (s : List Char) : Option DecimalLiteral :=
  let whole := s.takeWhile Char.isDigit
  let rest := s.dropWhile Char.isDigit
  let (fraction, rest) := match rest with
    | '.' :: rest => (rest.takeWhile Char.isDigit, rest.dropWhile Char.isDigit)
    | _ => ([], rest)
  let digits := whole ++ fraction
  if digits.isEmpty then none
  else
    match rest with
    | [] => some ⟨ofDigits digits, -(fraction.length : Int)⟩
    | c :: rest =>
      if c == 'e' || c == 'E' then
        (readExponent rest).map fun e => ⟨ofDigits digits, e - fraction.length⟩
      else none

namespace Binary

/-- An unsigned literal with the sign that stood before it. -/
def readUnsigned (f : Format) (negative : Bool) (s : List Char) : Except DecimalError (Binary f) :=
  match DecimalLiteral.read? s with
  | some literal =>
    .ok (.signed negative ⟨min f.infinity (f.roundDecimal literal.digits literal.exponent), by omega⟩)
  | none =>
    let word := s.map Char.toLower
    if word = "inf".toList ∨ word = "infinity".toList then .ok (infinite f negative)
    else if word = "nan".toList then .ok nan
    else .error .malformed

/-- The number nearest to a decimal literal. -/
def read (f : Format) (s : List Char) : Except DecimalError (Binary f) :=
  match s with
  | [] => .error .empty
  | '-' :: rest => readUnsigned f true rest
  | '+' :: rest => readUnsigned f false rest
  | _ => readUnsigned f false s

end Binary

end FeatureLines.Number
