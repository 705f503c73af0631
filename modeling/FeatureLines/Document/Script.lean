import FeatureLines.Document.Record
import FeatureLines.Marshal.Handle

/-!
# Scripted marshallers

A document can give a marshaller as a script, which is a list of operations that are carried out in order.
-/

namespace FeatureLines.Document

open Number

/-- An operation of a script. -/
inductive Operation where
  | indicator (name : String)
  | weighted (name : String) (weight : Double)
  | dense (anchor : Bool) (weights : List Double)
  | preallocate (additional : Nat)
  /-- An indicator with the name of the feature. -/
  | named
  /-- An indicator with a text that is made for the value. -/
  | rendered (text : String)
  | variant (index : Nat)
  /-- A note of all that a marshaller is told. -/
  | trace

/-- Reads an operation: its name and its arguments. -/
def Operation.ofJson? (j : Json) : Option Operation :=
  match j with
  | .array [.string "indicator", name] => name.string?.map indicator
  | .array [.string "weighted", name, weight] => do return weighted (← name.string?) (← weight.float? _)
  | .array [.string "dense", anchor, weights] => do
    return dense (← anchor.flag?) (← (← weights.list?).mapM (Json.float? _))
  | .array [.string "preallocate", additional] => additional.nat?.map preallocate
  | .array [.string "name"] => some named
  | .array [.string "rendered", text] => text.string?.map rendered
  | .array [.string "variant", index] => index.nat?.map variant
  | .array [.string "trace"] => some trace
  | _ => none

def orNull (item : Option Json) : Json := item.getD .null

/-- A hash as sixteen hexadecimal digits. -/
def hashJson (hash : UInt64) : Json :=
  let digits := Nat.toDigits 16 hash.toNat
  .string (String.ofList (List.replicate (16 - digits.length) '0' ++ digits))

def symbolJson (c : Char) : Json := .string (String.singleton c)

def spaceJson (space : Namespace) : Json :=
  .object [("name", orNull (space.name.map .string)), ("group", orNull (space.group.map symbolJson)),
    ("full", .string space.fullName), ("header", .string space.header), ("index", symbolJson space.index)]

/-- All that a marshaller is told. -/
def traceJson (space : Namespace) (feature : Feature) (view : View) : Json :=
  .object [("namespace", spaceJson space), ("name", .string feature.name), ("path", .string feature.path),
    ("order", .number (toString feature.order)), ("enumerize", .bool feature.enumerize),
    ("anchor", .bool feature.addAnchor), ("dictify", .bool feature.dictify), ("strings", .string feature.strings.name),
    ("text", .bool view.text), ("open", orNull (view.openHash.map hashJson)),
    ("engine_hash", hashJson (view.engine.hashSpace space.fullName))]

namespace Operation

/-- What an operation writes, before what comes next. -/
def write (space : Namespace) (feature : Feature) (site : Site) (next : Writing) : Operation → Writing
  | indicator name => .indicator name next
  | weighted name weight => .weighted name weight next
  | dense anchor weights => .dense anchor weights next
  | preallocate additional => .preallocate additional next
  | named => .indicator feature.name next
  | rendered text => .remember feature site ⟨text, none⟩ fun text => .indicator text next
  | variant index =>
    match feature.variantTokens[index]? with
    | some token => .indicator token next
    | none => next
  | trace => .look fun view => .report (.note (traceJson space feature view)) next

end Operation

abbrev Script := List Operation

namespace Script

def ofJson? (j : Json) : Option Script := do (← j.list?).mapM Operation.ofJson?

def write (s : Script) (space : Namespace) (feature : Feature) (cell : Cell) : Writing :=
  s.foldr (fun operation next => operation.write space feature cell.site next) .done

def handle (s : Script) (name : String) (type : ValueType) : Handle := ⟨name, some type, s.write⟩

end Script

end FeatureLines.Document
