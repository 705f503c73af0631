import FeatureLines.Text.Printable

/-!
# Quoted text and records

How values are shown in descriptions: texts and characters in quotes with escapes, lists in brackets, options as `Some`
or `None`, and records with their fields in braces.
-/

namespace FeatureLines.Text

/-- The escape of a character by its code point in hexadecimal. -/
def codeEscape (c : Char) : String := "\\u\x7b" ++ String.ofList (Nat.toDigits 16 c.toNat) ++ "\x7d"

/-- The text of a character inside quotes of the kind `quote`: the quote and the backslash behind a backslash, the common
controls by a letter, and by its code point what cannot be shown or would join the character before it. -/
def quotedChar (quote : Char) (c : Char) : String :=
  if c = '\x00' then "\\0"
  else if c = '\t' then "\\t"
  else if c = '\n' then "\\n"
  else if c = '\r' then "\\r"
  else if c = quote ∨ c = '\\' then "\\" ++ String.singleton c
  else if isPrintable c && !isExtending c then String.singleton c
  else codeEscape c

/-- A text in double quotes. -/
def quoted (s : String) : String := "\"" ++ String.join (s.toList.map (quotedChar '"')) ++ "\""

/-- A character in single quotes. -/
def quotedSymbol (c : Char) : String := "'" ++ quotedChar '\'' c ++ "'"

def bracketed (items : List String) : String := "[" ++ ", ".intercalate items ++ "]"

/-- An item that may be missing. -/
def optional (item : Option String) : String :=
  match item with
  | some item => "Some(" ++ item ++ ")"
  | none => "None"

/-- A record with its fields in order; `more` says that it has fields that are not shown. -/
def record (name : String) (fields : List (String × String)) (more : Bool) : String :=
  let shown := fields.map fun field => field.1 ++ ": " ++ field.2
  name ++ " \x7b " ++ ", ".intercalate (shown ++ if more then [".."] else []) ++ " \x7d"

end FeatureLines.Text
