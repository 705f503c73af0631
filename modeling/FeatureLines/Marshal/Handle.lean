import FeatureLines.Marshal.Writing

/-!
# Marshallers

A handle is a marshaller with its name and the type of the values it is bound to. It is total on cells: a value of
another type is reported and writes nothing. The built-in marshallers are chosen by the shape of a type, and an
enumerizing one turns any value that has a text into a token of its own.
-/

namespace FeatureLines

open Text

/-- A marshaller for the values of one type, or of every type. -/
structure Handle where
  name : String
  bound : Option ValueType
  marshal : Namespace → Feature → Cell → Writing

namespace Handle

/-- What a handle writes for a value. -/
def write (h : Handle) (space : Namespace) (feature : Feature) (cell : Cell) : Writing :=
  match h.bound with
  | none => h.marshal space feature cell
  | some type =>
    if cell.site.type = type then h.marshal space feature cell
    else .report (.misbound feature.path type.name) .done

def describe (h : Handle) : String := "MarshallerHandle(" ++ quoted h.name ++ ")"

/-- A number is a feature with its weight; a flag is a feature when it is set. -/
def writeNumeric (feature : Feature) : Cell → Writing
  | .leaf _ (.scalar value) =>
    match value.indicator? with
    | some true => .indicator feature.name .done
    | some false => .done
    | none => .weighted feature.name value.weight .done
  | _ => .done

/-- A variant is the token that was made for it. -/
def writeVariant (feature : Feature) : Cell → Writing
  | .leaf _ (.variant index) =>
    match feature.variantTokens[index]? with
    | some token => .indicator token .done
    | none => .done
  | _ => .done

/-- A sequence of numbers is a dense vector. -/
def writeDense (feature : Feature) : Cell → Writing
  | .leaf _ (.items items) =>
    .preallocate (items.length + if feature.addAnchor then 1 else 0)
      (.dense feature.addAnchor (items.map Scalar.weight) .done)
  | _ => .done

/-- Every entry is a feature named by its key. -/
def writeDictionary : Cell → Writing
  | .leaf _ (.entries entries) =>
    .preallocate entries.length
      (.forEach (fun entry => .render entry.1.rendering fun key => .weighted (escape key) entry.2.weight .done) entries)
  | _ => .done

/-- Every item that has a text is a token. -/
def writeBag : Cell → Writing
  | .leaf _ (.items items) =>
    .preallocate items.length
      (.forEach (fun item => .render item.rendering fun text =>
        if text.isEmpty then .done else .indicator (escape text) .done) items)
  | _ => .done

/-- The tokens of a text. -/
def displayTokens (feature : Feature) (text : String) : List String :=
  match feature.strings with
  | .split => (words text.toList).map fun word => escape (String.ofList word)
  | .escape => if text.isEmpty then [] else [escape text]
  | .escapeAndIncludeName => [feature.name ++ escape text]

/-- A displayed value is the tokens of its text. -/
def writeDisplay (feature : Feature) : Cell → Writing
  | .leaf site (.scalar value) =>
    .remember feature site value.rendering fun text =>
      .forEach (fun token => .indicator token .done) (displayTokens feature text)
  | _ => .done

/-- The text of a scalar or a variant, if the value has the type. -/
def renderingAs (type : ValueType) (cell : Cell) : Rendering :=
  if cell.site.type = type then
    match cell with
    | .leaf _ (.scalar value) => value.rendering
    | .leaf _ (.variant index) => ⟨type.form.variants[index]?.getD "", none⟩
    | _ => ⟨"", none⟩
  else ⟨"", none⟩

/-- The built-in marshaller for the shape of a type. -/
def builtIn? (type : ValueType) : Option Handle :=
  let handle (name : String) (write : Feature → Cell → Writing) : Option Handle :=
    some ⟨"featwire::marshal::" ++ name, some type, fun _ => write⟩
  match type.form.shape with
  | .numeric => handle "NumericMarshaller" writeNumeric
  | .enumeration => handle "EnumMarshaller" writeVariant
  | .dense => handle "DenseMarshaller" writeDense
  | .dictionary => handle "DictionaryMarshaller" fun _ => writeDictionary
  | .bag => handle "BagMarshaller" fun _ => writeBag
  | .display => handle "DisplayMarshaller" writeDisplay
  | .nested => none
  | .hidden => none

def hasRendering (type : ValueType) : Bool :=
  match type.form.shape with
  | .numeric => true
  | .enumeration => true
  | .display => true
  | _ => false

/-- The marshaller that makes each value of a type a token of its own. -/
def enumerizing? (type : ValueType) : Option Handle :=
  if hasRendering type then
    some
      { name := "featwire::marshal::EnumerizeMarshaller"
        bound := none
        marshal := fun _ feature cell =>
          .remember feature cell.site (renderingAs type cell) fun text => .indicator (feature.name ++ escape text) .done }
  else none

end Handle

/-- The description of what is known of a type that is no record. -/
def ValueType.describeLeaf (type : ValueType) : String :=
  let flag (b : Bool) : String := if b then "true" else "false"
  "Leaf(" ++
    record "LeafKind"
      [("shape", type.form.shape.name), ("has_marshaller", flag (Handle.builtIn? type).isSome),
        ("has_render", flag (Handle.hasRendering type)), ("variants", bracketed (type.form.variants.map quoted))] false ++
    ")"

end FeatureLines
