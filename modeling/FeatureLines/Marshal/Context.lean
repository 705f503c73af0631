import FeatureLines.Marshal.Writing
import FeatureLines.Options

/-!
# Writing contexts

A context is what one serialization writes to: the example under construction and the text line beside it, the lines
that are finished, and the texts that were made for values. Every operation of a marshaller goes to both forms under one
condition. A namespace that closes without a feature leaves no trace in either.
-/

namespace FeatureLines

open Number

/-- The open namespace: its hash, and the line as it was before the header of the namespace. -/
structure OpenNamespace where
  hash : UInt64
  before : String
deriving DecidableEq, Repr

/-- The state of one serialization. -/
structure Context where
  engine : Engine
  text : Bool
  floatFormat : FloatFormat
  precisionWarnings : Bool
  dictifyAll : Bool
  /-- The texts made so far, by site. -/
  memo : List (Site × String)
  builder : Option Builder
  line : String
  current : Option OpenNamespace
  natives : List Example
  texts : List String
  multiLine : Bool
  events : List Event

/-- The result of a serialization: an example for every line, their text when it was asked for, and whether the first
line is shared by the others. -/
structure Output where
  lines : List Example
  text : Option String
  multiLine : Bool
deriving DecidableEq

namespace Context

/-- An empty context for an engine; `default` is the format where the options name none. -/
def new (engine : Engine) (options : Options) (default : FloatFormat) : Context where
  engine
  text := options.text
  floatFormat := options.floatFormat.getD default
  precisionWarnings := options.precisionWarnings
  dictifyAll := options.dictify
  memo := []
  builder := none
  line := ""
  current := none
  natives := []
  texts := []
  multiLine := false
  events := []

def view (c : Context) : View := ⟨c.engine, c.text, c.current.map (·.hash)⟩

def record (c : Context) (event : Event) : Context := { c with events := c.events ++ [event] }

/-- Adds a feature to the example. -/
def addHashed (c : Context) (hash : UInt64) (weight : Single) : Context :=
  { c with builder := c.builder.map (·.addFeature hash weight) }

/-- Adds a token to the line, when there is a text form. -/
def addToken (c : Context) (token : String) : Context :=
  if c.text then { c with line := c.line ++ " " ++ token } else c

/-- Narrows a weight; `name` is whose weight it is, should it overflow. -/
def narrow (c : Context) (name : String) (weight : Double) : Context × Single :=
  let narrowed := weight.convert .single
  (if c.precisionWarnings && weight.isFinite && narrowed.isInfinite then c.record (.overflow name weight) else c,
    narrowed)

/-- A feature of weight zero or NaN is no feature. -/
def isKept (weight : Single) : Bool := !weight.isZero && !weight.isNan

/-- Adds a feature with a weight to the open namespace. -/
def addWeighted (c : Context) (name : String) (weight : Double) : Context :=
  match c.current with
  | none => c
  | some space =>
    let (c, weight) := c.narrow name weight
    if isKept weight then
      (c.addHashed (c.engine.hashFeature name space.hash) weight).addToken (name ++ ":" ++ c.floatFormat.text weight)
    else c

/-- Adds a feature of weight one to the open namespace. -/
def addIndicator (c : Context) (name : String) : Context :=
  match c.current with
  | none => c
  | some space => (c.addHashed (c.engine.hashFeature name space.hash) (.one _)).addToken name

/-- Adds the dense element at an offset. Offsets are machine words. -/
def addIndex (c : Context) (space : UInt64) (index : UInt64) (weight : Single) : Context :=
  (c.addHashed (c.engine.hashIndex space index) weight).addToken
    (toString index.toNat ++ ":" ++ c.floatFormat.text weight)

/-- Adds the elements of a dense vector from an offset on. An element that is left out keeps its offset. -/
def addElements (c : Context) (space : UInt64) (index : UInt64) : List Double → Context
  | [] => c
  | weight :: rest =>
    let (c, weight) := c.narrow "dense" weight
    addElements (if isKept weight then c.addIndex space index weight else c) space (index + 1) rest

/-- Adds a dense vector to the open namespace. An anchor takes the offset zero and moves the elements up by one. -/
def addDense (c : Context) (anchor : Bool) (weights : List Double) : Context :=
  match c.current with
  | none => c
  | some space =>
    if anchor then (c.addIndex space.hash 0 (.one _)).addElements space.hash 1 weights
    else c.addElements space.hash 0 weights

def preallocate (c : Context) (additional : Nat) : Context :=
  { c with builder := c.builder.map (·.preallocate additional) }

/-- Makes a text. -/
def render (c : Context) (rendering : Rendering) : Context × String :=
  (match rendering.counted with
    | some serial => c.record (.rendered serial)
    | none => c,
    rendering.text)

/-- Makes the text of the value at a site, or takes the one made before, when texts are kept for the feature. -/
def remember (c : Context) (feature : Feature) (site : Site) (rendering : Rendering) : Context × String :=
  if c.dictifyAll || feature.dictify then
    match c.memo.lookup site with
    | some text => (c, text)
    | none =>
      let (c, text) := c.render rendering
      ({ c with memo := (site, text) :: c.memo }, text)
  else c.render rendering

/-- Carries a writing out. -/
def run (c : Context) : Writing → Context
  | .done => c
  | .indicator name next => (c.addIndicator name).run next
  | .weighted name weight next => (c.addWeighted name weight).run next
  | .dense anchor weights next => (c.addDense anchor weights).run next
  | .preallocate additional next => (c.preallocate additional).run next
  | .render rendering next => (c.render rendering).1.run (next (c.render rendering).2)
  | .remember feature site rendering next =>
    (c.remember feature site rendering).1.run (next (c.remember feature site rendering).2)
  | .look next => c.run (next c.view)
  | .report event next => (c.record event).run next

/-- Opens a namespace and writes its header. -/
def beginNamespace (c : Context) (space : Namespace) : Context :=
  let hash := c.engine.hashSpace space.fullName
  { c with
    builder := c.builder.map (·.openNamespace space.index hash)
    current := some ⟨hash, c.line⟩
    line := if c.text then (if c.line.isEmpty then "" else c.line ++ " ") ++ space.header else c.line }

/-- Closes the open namespace. If it holds no feature, its header goes from the line. -/
def endNamespace (c : Context) : Context :=
  match c.current with
  | none => c
  | some space =>
    let closed := c.builder.map Builder.closeNamespace
    { c with
      current := none
      builder := closed.map (·.1)
      line := if (closed.map (·.2)).getD 0 = 0 then space.before else c.line }

/-- Finishes the line, if one was started. -/
def endLine (c : Context) : Context :=
  let c := c.endNamespace
  match c.builder with
  | none => c
  | some builder =>
    { c with
      builder := none
      natives := c.natives ++ [builder.finish]
      texts := if c.text then c.texts ++ [c.line] else c.texts
      line := if c.text then "" else c.line }

/-- Starts a line, finishing the one before. -/
def startLine (c : Context) : Context :=
  let c := if c.builder.isSome then c.endLine else c
  { c with builder := some (.ofExample c.engine.newExample), line := "" }

/-- Writes a label. A refused label leaves the context as it is. -/
def writeLabel (c : Context) (text : String) : Except LabelError Context :=
  (c.engine.readLabel text.toList).map fun label =>
    { c with
      builder := c.builder.map (·.setLabel label)
      line := if c.text then c.line ++ String.ofList (Text.trim text.toList) else c.line }

/-- Finishes the line and gives everything that was written. -/
def finish (c : Context) : Output :=
  let c := c.endLine
  ⟨c.natives, if c.text then some ("\n".intercalate c.texts) else none, c.multiLine⟩

def describe (c : Context) : String :=
  Text.record "MarshalContext"
    [("text", if c.text then "true" else "false"), ("float_format", c.floatFormat.title),
      ("lines", toString c.natives.length), ("memo", toString c.memo.length)] true

end Context

namespace Output

def shared? (o : Output) : Option Example := if o.multiLine then o.lines.head? else none

def actions (o : Output) : List Example := if o.multiLine then o.lines.tail else []

/-- Equality of the lines, their text and their kind. -/
def same (a b : Output) : Bool :=
  sameList Example.same a.lines b.lines && a.text == b.text && a.multiLine == b.multiLine

end Output

end FeatureLines
