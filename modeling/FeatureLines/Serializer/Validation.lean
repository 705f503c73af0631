import FeatureLines.Example.Difference
import FeatureLines.Line
import FeatureLines.Marshal.Context

/-!
# Cross-validation

The two forms of an output are compared by reading the text back: line by line, each difference between the example that
was read and the one that was built is reported.
-/

namespace FeatureLines

/-- What the comparison of the two forms gave. -/
structure ValidationReport where
  /-- The number of lines that were built. -/
  lines : Nat
  differences : List String
deriving DecidableEq, Repr

namespace ValidationReport

def isClean (r : ValidationReport) : Bool := r.differences.isEmpty

/-- What an unclean report gives besides. -/
def events (r : ValidationReport) : List Event := if r.isClean then [] else [.disagreement r.differences.length]

end ValidationReport

namespace Output

/-- The differences from a line on, as far as there are lines of both forms. -/
def lineDifferences (engine : Engine) (position : Nat) : List (List Char) → List Example → Except Error (List String)
  | text :: texts, native :: natives => do
    let parsed ← Line.read engine text
    let rest ← lineDifferences engine (position + 1) texts natives
    return (parsed.differences native).map (fun d => s!"line {position}: {d.message}") ++ rest
  | _, _ => .ok []

/-- Reads the text of an output with an engine and compares it with the lines that were built. -/
def crossValidate (engine : Engine) (o : Output) : Except Error ValidationReport :=
  match o.text with
  | none => .error .noText
  | some text => do
    let texts := Text.split (· == '\n') text.toList
    let counts :=
      if texts.length = o.lines.length then []
      else [s!"line count: {texts.length} text != {o.lines.length} native"]
    return ⟨o.lines.length, counts ++ (← lineDifferences engine 0 texts o.lines)⟩

end Output

end FeatureLines
