import FeatureLines.Derive.Lexer

/-!
# Values of literals

What a literal of a Rust source stands for: the text of a string literal, the character of a character literal, the
number of an integer literal. The kind of a literal shows at its first character.
-/

namespace FeatureLines.Derive

open FeatureLines.Text

def letterEscape : Char → Char
  | 'n' => '\n'
  | 'r' => '\r'
  | 't' => '\t'
  | '0' => '\x00'
  | c => c

/-- The character of an escape, from behind its backslash, and what follows it. -/
def readEscape? : List Char → Option (Char × List Char)
  | 'x' :: a :: b :: rest => do return (Char.ofNat (16 * (← Json.hexValue? a) + (← Json.hexValue? b)), rest)
  | 'u' :: rest => afterUnicode? rest
  | c :: rest => some (letterEscape c, rest)
  | [] => none

/-- The text of a quoted literal from behind its opening quote up to the closing one. -/
def unescape : Nat → List Char → List Char
  | 0, _ => []
  | fuel + 1, s =>
    match s with
    | '\\' :: rest =>
      if rest.head? = some '\n' ∨ rest.head? = some '\r' then unescape fuel (rest.dropWhile isLineBlank)
      else
        match readEscape? rest with
        | some (c, rest) => c :: unescape fuel rest
        | none => []
    | '\r' :: rest => '\n' :: unescape fuel (rest.drop 1)
    | '"' :: _ => []
    | c :: rest => c :: unescape fuel rest
    | [] => []

/-- The text of a raw literal from behind its `r`. -/
def rawText (s : List Char) : List Char :=
  let hashes := s.takeWhile (· == '#')
  let inside := s.drop (hashes.length + 1)
  match splitAtLast '"' inside with
  | some (text, _) => text
  | none => []

def stringValue? (literal : String) : Option String :=
  match literal.toList with
  | '"' :: rest => some (String.ofList (unescape rest.length rest))
  | 'r' :: rest => some (String.ofList (rawText rest))
  | _ => none

def characterValue? (literal : String) : Option Char :=
  match literal.toList with
  | '\'' :: '\\' :: rest => (readEscape? rest).map (·.1)
  | '\'' :: c :: _ => some c
  | _ => none

/-- Digits behind an `e` make an exponent, unless a word that is no suffix goes on behind them. -/
def isExponent (valued : Bool) : List Char → Bool
  | [] => valued
  | c :: rest =>
    if c == '_' then isExponent valued rest
    else if c == '+' || c == '-' then true
    else if c.isDigit then isExponent true rest
    else valued && isIdentifierStart c

/-- The natural number of digits in a base, with a suffix or none. -/
def digitsValue? (base value : Nat) (isEmpty : Bool) : List Char → Option Nat
  | [] => if isEmpty then none else some value
  | c :: rest =>
    let stop := if isEmpty then none else some value
    if c == '_' then digitsValue? base value isEmpty rest
    else if base == 10 && (c == 'e' || c == 'E') then if isExponent false rest then none else stop
    else if base == 10 && c == '.' then none
    else
      match Json.hexValue? c with
      | some d =>
        if d < base then digitsValue? base (base * value + d) false rest else if d < 10 then none else stop
      | none => stop

/-- The natural number of an integer literal. -/
def naturalValue? (literal : String) : Option Nat :=
  match literal.toList with
  | '0' :: 'x' :: rest => digitsValue? 16 0 true rest
  | '0' :: 'o' :: rest => digitsValue? 8 0 true rest
  | '0' :: 'b' :: rest => digitsValue? 2 0 true rest
  | c :: rest => if c.isDigit then digitsValue? 10 0 true (c :: rest) else none
  | [] => none

end FeatureLines.Derive
