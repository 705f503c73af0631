import FeatureLines.Engine
import FeatureLines.Json.Basic
import FeatureLines.Schema.Feature
import FeatureLines.Schema.Value

/-!
# Writings

What a marshaller does is a *writing*: a sequence of the operations that are open to marshallers, each of which may
depend on the answers to earlier ones. A writing is a value, so whatever is shown for every writing holds for every
marshaller, built in or not.
-/

namespace FeatureLines

open Number

/-- Something that happened besides the output. -/
inductive Event where
  /-- A finite weight is infinite as a weight of the engine. -/
  | overflow (feature : String) (weight : Double)
  /-- The text and the native form of an example disagree. -/
  | disagreement (differences : Nat)
  /-- A marshaller was given a value of another type than the one it is bound to. -/
  | misbound (path expected : String)
  /-- The value with a serial number was rendered. -/
  | rendered (serial : Nat)
  /-- A note that a marshaller left. -/
  | note (content : Json)

/-- What a marshaller can see of the state it writes to. -/
structure View where
  engine : Engine
  text : Bool
  /-- The hash of the open namespace. -/
  openHash : Option UInt64

/-- The operations of a marshaller, in order. -/
inductive Writing where
  | done
  | indicator (name : String) (next : Writing)
  | weighted (name : String) (weight : Double) (next : Writing)
  | dense (anchor : Bool) (weights : List Double) (next : Writing)
  | preallocate (additional : Nat) (next : Writing)
  /-- Makes a text. -/
  | render (rendering : Rendering) (next : String → Writing)
  /-- Makes the text of the value at a site, or takes the one that was made before for the site. -/
  | remember (feature : Feature) (site : Site) (rendering : Rendering) (next : String → Writing)
  | look (next : View → Writing)
  | report (event : Event) (next : Writing)

namespace Writing

/-- Goes on with a second writing. -/
def followedBy : Writing → Writing → Writing
  | done, after => after
  | indicator name next, after => indicator name (next.followedBy after)
  | weighted name weight next, after => weighted name weight (next.followedBy after)
  | dense anchor weights next, after => dense anchor weights (next.followedBy after)
  | preallocate additional next, after => preallocate additional (next.followedBy after)
  | render rendering next, after => render rendering fun text => (next text).followedBy after
  | remember feature site rendering next, after => remember feature site rendering fun text => (next text).followedBy after
  | look next, after => look fun view => (next view).followedBy after
  | report event next, after => report event (next.followedBy after)

/-- A writing for every item, in order. -/
def forEach {α : Type} (write : α → Writing) : List α → Writing
  | [] => .done
  | item :: rest => (write item).followedBy (forEach write rest)

end Writing

end FeatureLines
