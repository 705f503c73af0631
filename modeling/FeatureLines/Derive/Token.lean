import FeatureLines.Text.Quoted

/-!
# Tokens of Rust sources

A source is a tree of tokens: identifiers, punctuation characters, literals, and groups in brackets of one kind. A
punctuation character knows whether the next one follows at once, since only then can the two make one operator. Written
out, tokens stand apart by single spaces.
-/

namespace FeatureLines.Derive

open FeatureLines.Text

/-- The brackets around a group. -/
inductive Delimiter where
  | parenthesis
  | bracket
  | brace
deriving DecidableEq, Repr

namespace Delimiter

def opening : Delimiter → String
  | parenthesis => "("
  | bracket => "["
  | brace => "\x7b"

def closing : Delimiter → String
  | parenthesis => ")"
  | bracket => "]"
  | brace => "\x7d"

end Delimiter

/-- A token of a source. -/
inductive Token where
  /-- A word, with its `r#` if it is a raw one. -/
  | identifier (text : String)
  /-- A punctuation character; `joint` when another one follows at once. -/
  | punctuation (char : Char) (joint : Bool)
  | literal (text : String)
  | group (delimiter : Delimiter) (content : List Token)

namespace Token

mutual

/-- The texts of a token, from left to right. -/
def texts : Token → List String
  | identifier text => [text]
  | punctuation char _ => [String.singleton char]
  | literal text => [text]
  | group delimiter content => delimiter.opening :: (textsOf content ++ [delimiter.closing])

/-- The texts of tokens, from left to right. -/
def textsOf : List Token → List String
  | [] => []
  | token :: rest => texts token ++ textsOf rest

/-- The number of tokens in a token, itself included. -/
def weight : Token → Nat
  | group _ content => weightOf content + 2
  | _ => 1

/-- The number of tokens in tokens. -/
def weightOf : List Token → Nat
  | [] => 0
  | token :: rest => weight token + weightOf rest

end

/-- The characters of an operator as punctuation. -/
def operator (text : String) : List Token :=
  match text.toList.reverse with
  | [] => []
  | last :: rest => (rest.reverse.map (punctuation · true)) ++ [punctuation last false]

end Token

/-- The characters of a text inside a string literal. A NUL before an octal digit is written so that the two do not look
like an octal escape. -/
def literalChars : List Char → String
  | [] => ""
  | c :: rest =>
    (if c = '\x00' then if (rest.head?.any fun d => '0' ≤ d && d ≤ '7') then "\\x00" else "\\0" else quotedChar '"' c) ++
      literalChars rest

def stringLiteral (s : String) : String := "\"" ++ literalChars s.toList ++ "\""

end FeatureLines.Derive
