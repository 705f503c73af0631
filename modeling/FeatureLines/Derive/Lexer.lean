import FeatureLines.Derive.Identifier
import FeatureLines.Derive.Token
import FeatureLines.Json.Reader
import FeatureLines.Text.Blank

/-!
# Reading tokens

The lexical grammar of Rust sources. Comments are blanks, except that a documentation comment stands for an attribute.
A reader of one kind of token takes the characters from where the token may start and gives what follows it, or nothing
if there is no such token. `Token.readAll?` reads a source; brackets must match.
-/

namespace FeatureLines.Derive

open FeatureLines.Text

/-- Blanks between tokens: white space, and the marks of the writing direction. -/
def isSeparator (c : Char) : Bool := isBlank c || c == '\u200e' || c == '\u200f'

def afterWord? : List Char → Option (List Char)
  | c :: rest => if isIdentifierStart c then some (rest.dropWhile isIdentifierContinue) else none
  | [] => none

/-- What follows a literal's suffix, which may be missing. -/
def afterSuffix (s : List Char) : List Char := (afterWord? s).getD s

/-- No word goes on here. -/
def atWordEnd (s : List Char) : Bool := !(s.head?.any isIdentifierContinue)

/-- The text starts with another. -/
def startsWith (start : String) (s : List Char) : Bool := start.toList.isPrefixOf s

/-! ## Literals in quotes -/

/-- The kinds of quoted literals, which differ in the characters and escapes that they hold. -/
inductive Quotation where
  | text
  | bytes
  /-- A text for C, which holds no NUL. -/
  | terminated
deriving DecidableEq

def isHexDigit (c : Char) : Bool := (Json.hexValue? c).isSome

/-- The value of the hexadecimal digits of an escape between its braces, if it is a character. -/
def unicodeEscape? (digits : List Char) : Option Char := do
  let ds := digits.filter (· != '_')
  if ds.isEmpty || 6 < ds.length || digits.head? == some '_' then none
  let n ← ds.foldlM (fun n d => do return 16 * n + (← Json.hexValue? d)) 0
  if h : n.isValidChar then some (Char.ofNatAux n h) else none

/-- What follows `\u`, and the character it stands for. -/
def afterUnicode? : List Char → Option (Char × List Char)
  | '{' :: rest =>
    match rest.dropWhile fun c => isHexDigit c || c == '_' with
    | '}' :: after => do
      let c ← unicodeEscape? (rest.takeWhile fun c => isHexDigit c || c == '_')
      return (c, after)
    | _ => none
  | _ => none

/-- What follows a backslash and the escape after it, line ends apart. -/
def afterEscape? (q : Quotation) : List Char → Option (List Char)
  | 'x' :: a :: b :: rest =>
    let isRange := if q = .text then '0' ≤ a && a ≤ '7' else isHexDigit a
    if isRange && isHexDigit b && (q ≠ .terminated || a != '0' || b != '0') then some rest else none
  | 'u' :: rest => do
    let (c, rest) ← afterUnicode? rest
    if q = .bytes ∨ q = .terminated ∧ c = '\x00' then none else some rest
  | '0' :: rest => if q = .terminated then none else some rest
  | c :: rest => if c ∈ ['n', 'r', 't', '\\', '\'', '"'] then some rest else none
  | [] => none

/-- A character that stands for itself. -/
def isPlain (q : Quotation) (c : Char) : Bool :=
  match q with
  | .text => true
  | .bytes => c.toNat < 0x80
  | .terminated => c != '\x00'

/-- The blanks that are dropped after a backslash at the end of a line. -/
def isLineBlank (c : Char) : Bool := c == ' ' || c == '\t' || c == '\n' || c == '\r'

/-- What follows the blanks after a backslash at the end of a line. The literal goes on after them. -/
def afterLineBreak? : List Char → Option (List Char)
  | '\r' :: '\n' :: rest => afterLineBreak? rest
  | c :: rest => if c == '\r' then none else if isLineBlank c then afterLineBreak? rest else some (c :: rest)
  | [] => none

/-- What follows a quoted literal, from behind its opening quote. `fuel` bounds the number of characters. -/
def afterQuoted? (q : Quotation) : Nat → List Char → Option (List Char)
  | 0, _ => none
  | fuel + 1, s =>
    match s with
    | [] => none
    | '"' :: rest => some (afterSuffix rest)
    | '\r' :: rest =>
      match rest with
      | '\n' :: rest => afterQuoted? q fuel rest
      | _ => none
    | '\\' :: rest =>
      if rest.head? = some '\n' ∨ rest.head? = some '\r' then (afterLineBreak? rest).bind (afterQuoted? q fuel)
      else (afterEscape? q rest).bind (afterQuoted? q fuel)
    | c :: rest => if isPlain q c then afterQuoted? q fuel rest else none

/-- What follows a raw literal, from behind its opening quote; it ends with a quote and `hashes`. -/
def afterRaw? (q : Quotation) (hashes : List Char) : List Char → Option (List Char)
  | [] => none
  | '"' :: rest => if hashes.isPrefixOf rest then some (afterSuffix (rest.drop hashes.length)) else afterRaw? q hashes rest
  | '\r' :: '\n' :: rest => afterRaw? q hashes rest
  | '\r' :: _ => none
  | c :: rest => if isPlain q c then afterRaw? q hashes rest else none

/-- What follows a raw literal, from behind its `r`. -/
def afterRawStart? (q : Quotation) (s : List Char) : Option (List Char) :=
  match s.dropWhile (· == '#') with
  | '"' :: rest =>
    let hashes := s.takeWhile (· == '#')
    if 255 < hashes.length then none else afterRaw? q hashes rest
  | _ => none

/-- What follows a literal in double quotes with the letter of its kind in front, if it has one. -/
def afterString? (s : List Char) : Option (List Char) :=
  match s with
  | '"' :: rest => afterQuoted? .text s.length rest
  | 'r' :: rest => afterRawStart? .text rest
  | 'b' :: '"' :: rest => afterQuoted? .bytes s.length rest
  | 'b' :: 'r' :: rest => afterRawStart? .bytes rest
  | 'c' :: '"' :: rest => afterQuoted? .terminated s.length rest
  | 'c' :: 'r' :: rest => afterRawStart? .terminated rest
  | _ => none

/-- What follows a character literal, from behind its opening quote. -/
def afterCharacter? (q : Quotation) (s : List Char) : Option (List Char) := do
  let rest ← match s with
    | '\\' :: rest => afterEscape? q rest
    | _ :: rest => some rest
    | [] => none
  match rest with
  | '\'' :: rest => some (afterSuffix rest)
  | _ => none

/-! ## Number literals -/

/-- What follows an exponent, from behind its letter. Without digits it is `before`, what follows the number so far. -/
def afterExponent? (before : Option (List Char)) (signed valued : Bool) : List Char → Option (List Char)
  | [] => if valued then some [] else before
  | c :: rest =>
    if c == '+' || c == '-' then
      if valued then some (c :: rest) else if signed then before else afterExponent? before true valued rest
    else if c.isDigit then afterExponent? before signed true rest
    else if c == '_' then afterExponent? before signed valued rest
    else if valued then some (c :: rest)
    else before

def isDigitOrLine (c : Char) : Bool := c.isDigit || c == '_'

/-- What follows the digits of a number with a point or an exponent. -/
def afterRealDigits? (s : List Char) : Option (List Char) :=
  if !(s.head?.any Char.isDigit) then none
  else
    match s.dropWhile isDigitOrLine with
    | '.' :: rest =>
      if rest.head?.any fun c => c == '.' || isIdentifierStart c then none
      else
        match rest.dropWhile isDigitOrLine with
        | c :: after =>
          if c == 'e' || c == 'E' then afterExponent? (some (c :: after)) false false after else some (c :: after)
        | [] => some []
    | c :: rest => if c == 'e' || c == 'E' then afterExponent? none false false rest else none
    | [] => none

/-- What follows the digits of an integer in a base. -/
def afterDigits? (base : Nat) (isEmpty : Bool) : List Char → Option (List Char)
  | [] => if isEmpty then none else some []
  | c :: rest =>
    if c.isDigit then if c.toNat - '0'.toNat < base then afterDigits? base false rest else none
    else if c == '_' then if isEmpty && base == 10 then none else afterDigits? base isEmpty rest
    else if (Json.hexValue? c).any (· < base) then afterDigits? base false rest
    else if isEmpty then none
    else some (c :: rest)

/-- What follows the digits of an integer with the mark of its base. -/
def afterIntegerDigits? (s : List Char) : Option (List Char) :=
  match s with
  | '0' :: 'x' :: rest => afterDigits? 16 true rest
  | '0' :: 'o' :: rest => afterDigits? 8 true rest
  | '0' :: 'b' :: rest => afterDigits? 2 true rest
  | _ => afterDigits? 10 true s

/-- A number may have a suffix, and no word goes on behind it. -/
def afterNumberSuffix? (s : List Char) : Option (List Char) :=
  if atWordEnd (afterSuffix s) then some (afterSuffix s) else none

def afterLiteral? (s : List Char) : Option (List Char) :=
  let character := match s with
    | '\'' :: rest => afterCharacter? .text rest
    | 'b' :: '\'' :: rest => afterCharacter? .bytes rest
    | _ => none
  afterString? s <|> character <|> (afterRealDigits? s).bind afterNumberSuffix? <|>
    (afterIntegerDigits? s).bind afterNumberSuffix?

/-! ## Punctuation and words -/

/-- Whether a punctuation character stands here; a comment is none. -/
def atPunctuation (s : List Char) : Bool :=
  !startsWith "//" s && !startsWith "/*" s && s.head?.any ("~!@#$%^&*-=+|;:,<.>/?'".toList.contains ·)

/-- What follows a word, raw or not. Some words are never raw. -/
def afterIdentifier? (s : List Char) : Option (List Char) :=
  if startsWith "r#" s then do
    let rest ← afterWord? (s.drop 2)
    let word := String.ofList ((s.drop 2).take (s.length - 2 - rest.length))
    if word ∈ ["_", "super", "self", "Self", "crate"] then none else some rest
  else afterWord? s

/-- What opens a quoted literal opens no word. -/
def opensLiteral (s : List Char) : Bool :=
  ["r\"", "r#\"", "r##", "b\"", "b'", "br\"", "br#", "c\"", "cr\"", "cr#"].any (startsWith · s)

/-- The text between two places of a source. -/
def textBetween (s rest : List Char) : String := String.ofList (s.take (s.length - rest.length))

/-- A token that is no group, and what follows it. An apostrophe that starts no character literal is the start of a
lifetime's name. -/
def readLeaf? (s : List Char) : Option (Token × List Char) :=
  match afterLiteral? s with
  | some rest => some (.literal (textBetween s rest), rest)
  | none =>
    match s with
    | '\'' :: rest => do
      let after ← afterIdentifier? rest
      if after.head? = some '\'' ∨ after.head? = some '#' ∧ !startsWith "r#" rest then none
      else some (.punctuation '\'' true, rest)
    | c :: rest =>
      if atPunctuation s then some (.punctuation c (atPunctuation rest), rest)
      else if opensLiteral s then none
      else (afterIdentifier? s).map fun rest => (.identifier (textBetween s rest), rest)
    | [] => none

/-! ## Comments -/

def restOfLine : List Char → List Char × List Char
  | [] => ([], [])
  | '\n' :: rest => ([], '\n' :: rest)
  | '\r' :: '\n' :: rest => ([], '\n' :: rest)
  | c :: rest => (c :: (restOfLine rest).1, (restOfLine rest).2)

/-- The inside of a block comment and what follows it, from behind its opening; blocks may be nested. -/
def restOfBlock? (depth : Nat) : List Char → Option (List Char × List Char)
  | '/' :: '*' :: rest => (restOfBlock? (depth + 1) rest).map fun (inside, rest) => ('/' :: '*' :: inside, rest)
  | '*' :: '/' :: rest =>
    match depth with
    | 0 => some ([], rest)
    | depth + 1 => (restOfBlock? depth rest).map fun (inside, rest) => ('*' :: '/' :: inside, rest)
  | c :: rest => (restOfBlock? depth rest).map fun (inside, rest) => (c :: inside, rest)
  | [] => none

/-- A comment that is a blank, and what follows it. -/
def afterComment? (s : List Char) : Option (List Char) :=
  if startsWith "//" s && (!startsWith "///" s || startsWith "////" s) && !startsWith "//!" s then
    some (restOfLine s).2
  else if startsWith "/**/" s then some (s.drop 4)
  else if startsWith "/*" s && (!startsWith "/**" s || startsWith "/***" s) && !startsWith "/*!" s then
    (restOfBlock? 0 (s.drop 2)).map (·.2)
  else none

/-- A documentation comment: whether it documents what it stands in, its text, and what follows it. -/
def readDocumentation? (s : List Char) : Option (Bool × List Char × List Char) :=
  if startsWith "//!" s then some (true, restOfLine (s.drop 3))
  else if startsWith "/*!" s then (restOfBlock? 0 (s.drop 2)).map fun (inside, rest) => (true, inside.drop 1, rest)
  else if startsWith "///" s then some (false, restOfLine (s.drop 3))
  else if startsWith "/**" s then (restOfBlock? 0 (s.drop 2)).map fun (inside, rest) => (false, inside.drop 1, rest)
  else none

/-- The attribute that a documentation comment stands for. -/
def documentation (inner : Bool) (text : List Char) : List Token :=
  [.punctuation '#' false] ++ (if inner then [.punctuation '!' false] else []) ++
    [.group .bracket
      [.identifier "doc", .punctuation '=' false, .literal (stringLiteral (String.ofList text))]]

/-- A carriage return that ends no line. -/
def hasBareReturn : List Char → Bool
  | [] => false
  | '\r' :: '\n' :: rest => hasBareReturn rest
  | c :: rest => c == '\r' || hasBareReturn rest

/-! ## Sources -/

/-- A piece of a source: tokens, or one side of a bracket. -/
inductive Piece where
  | tokens (tokens : List Token)
  | opening (delimiter : Delimiter)
  | closing (delimiter : Delimiter)

def bracket? : Char → Option Piece
  | '(' => some (.opening .parenthesis)
  | '[' => some (.opening .bracket)
  | '{' => some (.opening .brace)
  | ')' => some (.closing .parenthesis)
  | ']' => some (.closing .bracket)
  | '}' => some (.closing .brace)
  | _ => none

/-- The pieces of a source in order. Every piece takes a character, and so does every blank; `fuel` bounds them. -/
def readPieces? : Nat → List Char → Option (List Piece)
  | 0, _ => none
  | _, [] => some []
  | fuel + 1, c :: rest =>
    let s := c :: rest
    if isSeparator c then readPieces? fuel rest
    else
      match afterComment? s with
      | some rest => readPieces? fuel rest
      | none =>
        match readDocumentation? s with
        | some (inner, text, rest) =>
          if hasBareReturn text then none else (readPieces? fuel rest).map (.tokens (documentation inner text) :: ·)
        | none =>
          match bracket? c with
          | some piece => (readPieces? fuel rest).map (piece :: ·)
          | none => do
            let (token, rest) ← readLeaf? s
            (readPieces? fuel rest).map (.tokens [token] :: ·)

/-- Puts pieces together. `outer` holds the groups that are open, each with the tokens before it. -/
def assemble? (outer : List (Delimiter × List Token)) (current : List Token) : List Piece → Option (List Token)
  | [] => if outer.isEmpty then some current else none
  | .tokens tokens :: rest => assemble? outer (current ++ tokens) rest
  | .opening delimiter :: rest => assemble? ((delimiter, current) :: outer) [] rest
  | .closing delimiter :: rest =>
    match outer with
    | [] => none
    | (opened, before) :: outer =>
      if opened = delimiter then assemble? outer (before ++ [.group delimiter current]) rest else none

/-- The tokens of a source, a byte order mark at its start aside. -/
def Token.readAll? (source : String) : Option (List Token) :=
  let s := match source.toList with
    | '\ufeff' :: rest => rest
    | s => s
  (readPieces? (s.length + 1) s).bind (assemble? [] [])

end FeatureLines.Derive
