import FeatureLines.Text.Escape
import FeatureLines.Text.Quoted

/-!
# Namespaces and features

What a marshaller is told about the place it writes to: the namespace with its escaped names, and the feature with its
escaped name and its flags. `Scope` is the namespace and the group that members hand down to what they hold.
-/

namespace FeatureLines

open Text

/-- How a displayed value becomes tokens. -/
inductive StringProcessing where
  /-- One token for each word. -/
  | split
  /-- One token, the escaped text. -/
  | escape
  /-- One token, the name of the feature and the escaped text. -/
  | escapeAndIncludeName
deriving DecidableEq, Repr

def StringProcessing.name : StringProcessing → String
  | split => "split"
  | escape => "escape"
  | escapeAndIncludeName => "escape_and_include_name"

/-- The namespace and the group that a member inherits. -/
structure Scope where
  namespaceName : Option String
  group : Option Char
deriving DecidableEq, Repr

/-- The scope of a root: the default namespace, no group. -/
def Scope.root : Scope := ⟨none, none⟩

/-- A namespace as marshallers see it. -/
structure Namespace where
  name : Option String
  group : Option Char
  /-- Group and name, the text that the engine hashes. -/
  fullName : String
deriving DecidableEq, Repr

namespace Namespace

/-- The namespace of a name and a group, both escaped. -/
def make (name : Option String) (group : Option Char) : Namespace :=
  let name := name.map Text.escape
  let group := group.map escapeChar
  ⟨name, group, ((group.map String.singleton).getD "") ++ name.getD ""⟩

/-- The start of the namespace on a text line. -/
def header (n : Namespace) : String := "|" ++ n.fullName

/-- The first character of the full name, or a space when there is none. -/
def index (n : Namespace) : Char := n.fullName.toList.headD ' '

end Namespace

/-- A feature as marshallers see it. -/
structure Feature where
  /-- The escaped name. -/
  name : String
  /-- The dotted path of members from the root. -/
  path : String
  order : Int := 0
  enumerize : Bool := false
  addAnchor : Bool := false
  dictify : Bool := false
  strings : StringProcessing := .escapeAndIncludeName
  /-- For an enumeration, the token of each variant. -/
  variantTokens : List String := []
deriving DecidableEq, Repr

/-- A feature by itself, with nothing but a name. -/
def Feature.named (name : String) : Feature := { name := Text.escape name, path := name }

end FeatureLines
