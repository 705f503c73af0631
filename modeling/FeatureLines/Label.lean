import FeatureLines.Error
import FeatureLines.Number.Layout
import FeatureLines.Text.Blank

/-!
# Labels

A record carries a `Label`: a target with an optional importance weight, a bandit's action with its cost and the
probability it was chosen with, or raw text. A line carries a `ParsedLabel`, which is read from the text of a label by
`ParsedLabel.read`. The three syntaxes are told apart by the word `shared` and by the presence of a colon.
-/

namespace FeatureLines

open Number Text

/-- A label as a record holds it. -/
inductive Label where
  | simple (label : Single) (weight : Option Single)
  | bandit (action : UInt32) (cost probability : Single)
  | raw (text : String)
deriving DecidableEq

def Label.text : Label → String
  | simple label none => label.positional
  | simple label (some weight) => label.positional ++ " " ++ weight.positional
  | bandit action cost probability =>
    toString action.toNat ++ ":" ++ cost.positional ++ ":" ++ probability.positional
  | raw text => text

/-- A label as the engine understands it. -/
inductive ParsedLabel where
  | simple (label weight : Single)
  | bandit (action : UInt32) (cost probability : Single)
  /-- The mark of the line that candidate lines share. -/
  | shared
deriving DecidableEq

namespace ParsedLabel

/-- The label text of the line that candidate lines share. -/
def sharedText : String := "shared"

/-- Equality of the numbers in two labels of one kind. -/
def eqNumber : ParsedLabel → ParsedLabel → Bool
  | simple l w, simple l' w' => l.eqNumber l' && w.eqNumber w'
  | bandit a c p, bandit a' c' p' => a == a' && c.eqNumber c' && p.eqNumber p'
  | shared, shared => true
  | _, _ => false

def readNumber (text part : List Char) : Except LabelError Single :=
  (Binary.read .single part).mapError fun cause =>
    .number (String.ofList part) (String.ofList text) (.decimal cause)

def readAction (text part : List Char) : Except LabelError UInt32 :=
  match readNat (2 ^ (32 : Nat) - 1) part with
  | .ok n => .ok (UInt32.ofNat n)
  | .error cause => .error (.number (String.ofList part) (String.ofList text) (.integer cause))

/-- Reads the parts of a label with colons. -/
def readBandit (text : List Char) : Except LabelError ParsedLabel :=
  match split (· == ':') text with
  | [action, cost, probability] => do
    let action ← readAction text action
    let cost ← readNumber text cost
    let probability ← readNumber text probability
    return bandit action cost probability
  | _ => .error (.parts (String.ofList text))

/-- Reads a label without colons: one number, or two of which the second is the weight. The first is read before the
words are counted. -/
def readSimple (text : List Char) : Except LabelError ParsedLabel :=
  match words text with
  | [] => .error .missing
  | label :: rest => do
    let label ← readNumber text label
    match rest with
    | [] => return simple label (Binary.one _)
    | weight :: rest =>
      let weight ← readNumber text weight
      match rest with
      | [] => return simple label weight
      | _ :: _ => .error (.trailing (String.ofList text))

/-- Reads the text of a label, blanks around it aside. -/
def read (s : List Char) : Except LabelError ParsedLabel :=
  let text := trim s
  if text = sharedText.toList then .ok shared
  else if text.contains ':' then readBandit text
  else readSimple text

/-- The description of a parsed label, as differences show it. -/
def describe : ParsedLabel → String
  | simple label weight => record "Simple" [("label", label.precise), ("weight", weight.precise)] false
  | bandit action cost probability =>
    record "ContextualBandit"
      [("action", toString action.toNat), ("cost", cost.precise), ("probability", probability.precise)] false
  | shared => "Shared"

end ParsedLabel

end FeatureLines
