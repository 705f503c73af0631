import FeatureLines.Engine
import FeatureLines.Text.Blank

/-!
# Reading lines

A line is `label |name token token ... |name token ...`. The head before the first bar is a label or blank. In a
segment, the characters up to the first blank are the namespace's name, and each later word is a feature: with a colon,
the part after the last one is its weight, and without, its weight is one. Features of weight zero or NaN are left out,
and so are namespaces that are left without features.
-/

namespace FeatureLines

open Number Text

/-- A word of a segment: the name of a feature and its weight. -/
structure Token where
  name : List Char
  weight : Single
deriving DecidableEq

namespace Token

/-- Reads a word of a segment. -/
def read (word : List Char) : Except Error Token :=
  match splitAtLast ':' word with
  | none => .ok ⟨word, Binary.one _⟩
  | some (name, weight) =>
    match Binary.read .single weight with
    | .ok weight => .ok ⟨name, weight⟩
    | .error cause => .error (.parse (String.ofList word) cause)

/-- A feature of weight zero or NaN is no feature. -/
def isKept (t : Token) : Bool := !t.weight.isZero && !t.weight.isNan

end Token

namespace Line

/-- Adds the features of some words to the open namespace of a builder. -/
def addWords (engine : Engine) (space : UInt64) (b : Builder) : List (List Char) → Except Error Builder
  | [] => .ok b
  | word :: rest => do
    let token ← Token.read word
    addWords engine space
      (if token.isKept then b.addFeature (engine.hashFeature (String.ofList token.name) space) token.weight else b) rest

/-- The index of a namespace: the first character of its name, or a space. -/
def indexOf (name : List Char) : Char := name.headD ' '

def addSegment (engine : Engine) (b : Builder) (segment : List Char) : Except Error Builder := do
  let name := segment.takeWhile (!isBlank ·)
  let space := engine.hashSpace (String.ofList name)
  let b ← addWords engine space (b.openNamespace (indexOf name) space) (words (segment.dropWhile (!isBlank ·)))
  return b.closeNamespace.1

def addSegments (engine : Engine) (b : Builder) : List (List Char) → Except Error Builder
  | [] => .ok b
  | segment :: rest => do addSegments engine (← addSegment engine b segment) rest

/-- Sets the label that the head of a line stands for. -/
def addHead (engine : Engine) (b : Builder) (head : List Char) : Except Error Builder :=
  match trim head with
  | [] => .ok b
  | text => (engine.readLabel text).mapError Error.label |>.map b.setLabel

def read (engine : Engine) (line : List Char) : Except Error Example := do
  let b ← addHead engine (.ofExample engine.newExample) ((split (· == '|') line).headD [])
  return (← addSegments engine b (split (· == '|') line).tail).finish

/-- Reads the lines of a text, each as an example. -/
def readAll (engine : Engine) (text : List Char) : Except Error (List Example) :=
  (split (· == '\n') text).mapM (read engine)

end Line

end FeatureLines
