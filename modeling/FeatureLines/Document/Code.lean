import FeatureLines.Json.Decode
import FeatureLines.Schema.Value

/-!
# Codes of types

A document names the types of values by codes, such as `u8`, `Vec<f32>` or `BTreeMap<String,bool>`. Behind a code stand
the type with its full name and the way its values are read from JSON. The names of types that are not of the standard
library come from a `Vocabulary`.
-/

namespace FeatureLines.Document

open Number

/-- The names of the types that a document brings along. -/
structure Vocabulary where
  /-- The names of types that stand by themselves. -/
  own : String → String
  record : Nat → String
  enumeration : Nat → String
  variants : List (List String)

/-- What is counted while values are read: the places given to them, and the renderings that will be counted. -/
structure Reading where
  places : Nat := 0
  counted : Nat := 0

/-- Reading may fail, and goes on counting. -/
abbrev Read := StateT Reading Option

/-- The scalars behind a code. -/
structure ScalarCode where
  name : String
  kind : ScalarKind
  read : Json → Read Scalar

/-- The values behind a code. -/
structure Code where
  type : ValueType
  read : Json → Read Datum

def readText (j : Json) : Read Scalar := do return .text (← j.string?)

/-- A number that shows itself with a letter before it and weighs ten times as much; below zero and above a hundred it is
a flag. -/
def readMeasure (j : Json) : Read Scalar := do
  let v ← j.integer? true 32
  return .measure s!"L{v}" (.ofInt _ (10 * v)) (if v < 0 then some false else if 100 < v then some true else none)

/-- A text whose renderings are counted under the next serial number. -/
def readCounted (j : Json) : Read Scalar := do
  let text ← j.string?
  let state ← get
  set { state with counted := state.counted + 1 }
  return .counted state.counted text

namespace ScalarCode

/-- Integers of up to 64 bits are numbers; wider ones are displayed only. -/
def integer (name : String) (signed : Bool) (bits : Nat) : ScalarCode :=
  ⟨name, if bits ≤ 64 then .numeric else .displayed, fun j => do return .integer (← j.integer? signed bits)⟩

def ofText? (v : Vocabulary) (code : String) : Option ScalarCode :=
  match code with
  | "bool" => some ⟨code, .numeric, fun j => do return .flag (← j.bool?)⟩
  | "u8" => some (integer code false 8)
  | "u16" => some (integer code false 16)
  | "u32" => some (integer code false 32)
  | "u64" => some (integer code false 64)
  | "usize" => some (integer code false 64)
  | "u128" => some (integer code false 128)
  | "i8" => some (integer code true 8)
  | "i16" => some (integer code true 16)
  | "i32" => some (integer code true 32)
  | "i64" => some (integer code true 64)
  | "isize" => some (integer code true 64)
  | "i128" => some (integer code true 128)
  | "f32" => some ⟨code, .numeric, fun j => do return .single (← j.float? _)⟩
  | "f64" => some ⟨code, .numeric, fun j => do return .double (← j.float? _)⟩
  | "char" => some ⟨code, .displayed, fun j => do return .character (← j.character?)⟩
  | "String" => some ⟨"alloc::string::String", .displayed, readText⟩
  | "str" => some ⟨"&str", .displayed, readText⟩
  | "Tag" => some ⟨v.own code, .displayed, readCounted⟩
  | "Scaled" => some ⟨v.own code, .numeric, readMeasure⟩
  | "Opaque" => some ⟨v.own code, .hidden, fun _ => return .text ""⟩
  | _ => none

end ScalarCode

/-- The text between a start and an end. -/
def between? (start stop code : String) : Option String :=
  let cs := code.toList
  if start.toList.isPrefixOf cs && stop.toList.isSuffixOf cs then
    some (String.ofList ((cs.drop start.length).take (cs.length - start.length - stop.length)))
  else none

/-- A way to build a type around others: what stands around them in the code and in the name, and what it builds of what
it reads. -/
structure Frame (κ ι : Type) where
  codeStart : String
  codeStop : String
  nameStart : String
  nameStop : String
  form : κ
  build : List ι → Datum

/-- The frames around a type of items. -/
def sequenceFrames : List (Frame (ScalarKind → Form) Scalar) :=
  [⟨"VecDeque<", ">", "alloc::collections::vec_deque::VecDeque<", ">", .block, .items⟩,
    ⟨"Vec<", ">", "alloc::vec::Vec<", ">", .vector, .items⟩,
    ⟨"Box<[", "]>", "alloc::boxed::Box<[", "]>", .block, .items⟩,
    ⟨"BTreeSet<", ">", "alloc::collections::btree::set::BTreeSet<", ">", .set, .ofSet⟩,
    ⟨"HashSet<", ">", "std::collections::hash::set::HashSet<", ">", .set, .ofSet⟩]

/-- The frames around a type of keys and a type of values. -/
def entryFrames : List (Frame (ScalarKind → ScalarKind → Form) (Scalar × Scalar)) :=
  [⟨"Vec<(", ")>", "alloc::vec::Vec<(", ")>", .entries, .entries⟩,
    ⟨"BTreeMap<", ">", "alloc::collections::btree::map::BTreeMap<", ">", .entries, .ofMap⟩,
    ⟨"HashMap<", ">", "std::collections::hash::map::HashMap<", ">", .entries, .ofMap⟩]

def readItems (item : ScalarCode) (j : Json) : Read (List Scalar) := do (← j.list?).mapM item.read

/-- Reads the pairs of a list. -/
def readEntries (key value : ScalarCode) (j : Json) : Read (List (Scalar × Scalar)) := do
  (← j.list?).mapM fun entry =>
    match entry with
    | .array [k, v] => do return (← key.read k, ← value.read v)
    | _ => failure

namespace Code

/-- The values of a frame around items. -/
def ofSequence (v : Vocabulary) (code : String) (frame : Frame (ScalarKind → Form) Scalar) : Option Code := do
  let item ← ScalarCode.ofText? v (← between? frame.codeStart frame.codeStop code)
  return ⟨⟨frame.nameStart ++ item.name ++ frame.nameStop, frame.form item.kind⟩,
    fun j => do return frame.build (← readItems item j)⟩

/-- The values of a frame around keys and values. -/
def ofEntries (v : Vocabulary) (code : String) (frame : Frame (ScalarKind → ScalarKind → Form) (Scalar × Scalar)) :
    Option Code :=
  match (between? frame.codeStart frame.codeStop code).map (·.splitOn ",") with
  | some [key, value] => do
    let key ← ScalarCode.ofText? v key
    let value ← ScalarCode.ofText? v value
    return ⟨⟨frame.nameStart ++ key.name ++ ", " ++ value.name ++ frame.nameStop, frame.form key.kind value.kind⟩,
      fun j => do return frame.build (← readEntries key value j)⟩
  | _ => none

/-- The values of an array with a length. -/
def ofArray (v : Vocabulary) (code : String) : Option Code :=
  match (between? "[" "]" code).map (·.splitOn ";") with
  | some [item, length] => do
    let item ← ScalarCode.ofText? v item
    return ⟨⟨"[" ++ item.name ++ "; " ++ length ++ "]", .block item.kind⟩,
      fun j => do return .items (← readItems item j)⟩
  | _ => none

/-- The values of a numbered enumeration. -/
def ofEnumeration (v : Vocabulary) (code : String) : Option Code := do
  let id ← (← between? "enum:" "" code).toNat?
  return ⟨⟨v.enumeration id, .enumeration (v.variants[id]?.getD [])⟩, fun j => do return .variant (← j.nat?)⟩

/-- The values behind a code. -/
def ofText? (v : Vocabulary) (code : String) : Option Code :=
  if code = "Option<u32>" then
    some ⟨⟨"core::option::Option<u32>", .scalar .hidden⟩, fun _ => return .hidden⟩
  else
    ((ScalarCode.ofText? v code).map fun s => ⟨⟨s.name, .scalar s.kind⟩, fun j => do return .scalar (← s.read j)⟩) <|>
      ofEnumeration v code <|> entryFrames.findSome? (ofEntries v code) <|>
      sequenceFrames.findSome? (ofSequence v code) <|> ofArray v code

end Code

end FeatureLines.Document
