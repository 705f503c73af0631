import FeatureLines.Label

/-!
# Values and their types

A value type has a name, by which it is known, and a form, by which the way to write its values is chosen: the *shape*.
Values stand in cells. A cell has a site, which is the place where the value is stored and the type it is stored as;
records are lists of cells, where a missing cell is a missing member.
-/

namespace FeatureLines

open Number

/-- What can be done with the scalars of a type. -/
inductive ScalarKind where
  /-- They have a weight and a text. -/
  | numeric
  | displayed
  /-- Nothing is known of them. -/
  | hidden
deriving DecidableEq, Repr

/-- How the values of a type are built. -/
inductive Form where
  | scalar (kind : ScalarKind)
  | enumeration (variants : List String)
  /-- A sequence that may hold anything. -/
  | vector (kind : ScalarKind)
  /-- A sequence that serves numbers only: an array, a boxed slice or a ring buffer. -/
  | block (kind : ScalarKind)
  | set (kind : ScalarKind)
  /-- Keys with values, as a map or as a list of pairs. -/
  | entries (key value : ScalarKind)
  /-- A record type of the catalogue. -/
  | record (id : Nat)
  | label
  /-- The candidates of a record with actions. -/
  | candidates (id : Nat)
deriving DecidableEq, Repr

/-- A type of values, known by its name. -/
structure ValueType where
  name : String
  form : Form
deriving DecidableEq, Repr

/-- The way values of a type are written. -/
inductive Shape where
  | numeric
  | enumeration
  | dense
  | dictionary
  | bag
  | display
  | nested
  | hidden
deriving DecidableEq, Repr

namespace Shape

def name : Shape → String
  | numeric => "Numeric"
  | enumeration => "Enum"
  | dense => "Dense"
  | dictionary => "Dictionary"
  | bag => "Bag"
  | display => "Display"
  | nested => "Nested"
  | hidden => "Opaque"

end Shape

/-- The shape of a form. A sequence of numbers is a vector by offset before it is a bag of items. -/
def Form.shape : Form → Shape
  | record _ => .nested
  | enumeration _ => .enumeration
  | scalar .numeric => .numeric
  | scalar .displayed => .display
  | vector .numeric => .dense
  | block .numeric => .dense
  | entries .numeric .numeric => .dictionary
  | entries .displayed .numeric => .dictionary
  | vector .displayed => .bag
  | set .numeric => .bag
  | set .displayed => .bag
  | _ => .hidden

/-- The names of the variants, for an enumeration. -/
def Form.variants : Form → List String
  | enumeration variants => variants
  | _ => []

/-- A single value. -/
inductive Scalar where
  | flag (value : Bool)
  | integer (value : Int)
  | single (value : Single)
  | double (value : Double)
  | character (value : Char)
  | text (value : String)
  /-- A number of a type of its own, with its text, its weight and, when it is a flag, whether it is set. -/
  | measure (text : String) (weight : Double) (indicator : Option Bool)
  /-- A displayed value whose renderings are counted under a serial number. -/
  | counted (serial : Nat) (text : String)
deriving DecidableEq

/-- A text that comes from a value; `counted` is the serial number under which the making of it is counted. -/
structure Rendering where
  text : String
  counted : Option Nat
deriving DecidableEq, Repr

namespace Scalar

def display : Scalar → String
  | flag value => if value then "true" else "false"
  | integer value => toString value
  | single value => value.positional
  | double value => value.positional
  | character value => String.singleton value
  | text value => value
  | measure shown _ _ => shown
  | counted _ shown => shown

def rendering (s : Scalar) : Rendering :=
  ⟨s.display, match s with
    | counted serial _ => some serial
    | _ => none⟩

/-- The weight of a number; what is no number weighs nothing. -/
def weight : Scalar → Double
  | flag value => if value then .one _ else .zero _
  | integer value => .ofInt _ value
  | single value => value.convert _
  | double value => value
  | measure _ weight _ => weight
  | _ => .zero _

/-- For a flag, whether it is set. -/
def indicator? : Scalar → Option Bool
  | flag value => some value
  | measure _ _ indicator => indicator
  | _ => none

/-- The order of keys: integers and flags by value, texts by code points. -/
def before : Scalar → Scalar → Bool
  | flag a, flag b => !a && b
  | integer a, integer b => a < b
  | character a, character b => a < b
  | text a, text b => a < b
  | _, _ => false

/-- Puts an entry into entries sorted by key; the entry of an equal key is replaced. -/
def insertEntry (key value : Scalar) : List (Scalar × Scalar) → List (Scalar × Scalar)
  | [] => [(key, value)]
  | entry :: rest =>
    if entry.1 = key then (key, value) :: rest
    else if key.before entry.1 then (key, value) :: entry :: rest
    else entry :: insertEntry key value rest

/-- Puts an item into sorted items, unless it is there. -/
def insertItem (item : Scalar) : List Scalar → List Scalar
  | [] => [item]
  | other :: rest =>
    if other = item then other :: rest
    else if item.before other then item :: other :: rest
    else other :: insertItem item rest

end Scalar

/-- The content of a cell that is no record. -/
inductive Datum where
  | scalar (value : Scalar)
  | variant (index : Nat)
  | items (items : List Scalar)
  | entries (entries : List (Scalar × Scalar))
  | label (label : Label)
  | hidden
deriving DecidableEq

namespace Datum

def ofSet (items : List Scalar) : Datum := .items (items.foldl (fun sorted item => Scalar.insertItem item sorted) [])

/-- The entries in the order of a map; of the entries with one key the last stays. -/
def ofMap (entries : List (Scalar × Scalar)) : Datum :=
  .entries (entries.foldl (fun sorted entry => Scalar.insertEntry entry.1 entry.2 sorted) [])

end Datum

/-- Where a value is stored, and the type it is stored as. -/
structure Site where
  address : Nat
  type : ValueType
deriving DecidableEq

/-- A stored value. -/
inductive Cell where
  | leaf (site : Site) (datum : Datum)
  | record (site : Site) (fields : List (Option Cell))
  | candidates (site : Site) (items : List (List (Option Cell)))

/-- A record: a cell for every field, or none where the member is missing. -/
abbrev Record := List (Option Cell)

def Cell.site : Cell → Site
  | leaf site _ => site
  | record site _ => site
  | candidates site _ => site

namespace Record

def field? (r : Record) (position : Nat) : Option Cell := r[position]?.join

/-- The cell at the end of a chain of fields; every field before the last one holds a record. -/
def follow? (r : Record) : List Nat → Option Cell
  | [] => none
  | [position] => r.field? position
  | position :: rest =>
    match r.field? position with
    | some (.record _ fields) => follow? fields rest
    | _ => none

end Record

end FeatureLines
