import FeatureLines.Marshal.Registry
import FeatureLines.Options
import FeatureLines.Schema.Extraction
import FeatureLines.Schema.Grouping

/-!
# Plans

A plan is what a record type is compiled to: namespace by namespace the features with their marshallers, the member that
holds the label, and the candidates with a plan of their own. Compiling goes through the faults of a schema in a fixed
order and reports the first.
-/

namespace FeatureLines

open Text

/-- A feature with the marshaller it is bound to. -/
structure Step where
  descriptor : Descriptor
  handle : Handle
  resolution : Resolution

/-- The features of one namespace, in the order in which they are written. -/
structure Block where
  runtime : Namespace
  dense : Bool
  steps : List Step

/-- What a line of a record type consists of. -/
structure LinePlan where
  typeName : String
  blocks : List Block
  label : Option Placed

/-- The candidates of a record type. -/
structure ActionPlan where
  member : Placed
  candidate : LinePlan

/-- What a record type is compiled to. -/
structure Plan where
  kind : OutputKind
  line : LinePlan
  actions : Option ActionPlan

namespace Block

/-- Binds the features of a group to their marshallers. -/
def ofGroup (type : String) (r : Registry) (g : Group) : Except SchemaError Block := do
  let steps ← g.features.mapM fun d => do
    let (handle, resolution) ← resolve type r d
    return ⟨d, handle, resolution⟩
  return ⟨g.runtime, g.key.dense, steps⟩

end Block

namespace LinePlan

/-- Compiles the features and the label of a record type. -/
def compile (c : Catalogue) (r : Registry) (id : Nat) : Except SchemaError LinePlan := do
  let ds ← c.extract .root id
  let groups ← groupFeatures (c.name id) ds
  let blocks ← groups.mapM (Block.ofGroup (c.name id) r)
  match c.labels id with
  | [] => return ⟨c.name id, blocks, none⟩
  | [label] => return ⟨c.name id, blocks, some label⟩
  | labels => .error (.multipleLabels (c.name id) (labels.map Placed.path))

end LinePlan

namespace ActionPlan

/-- Puts the plan of the candidates to their member. Candidates must contribute a namespace. -/
def ofCandidate (member : Placed) (candidate : LinePlan) : Except SchemaError ActionPlan :=
  if candidate.blocks.isEmpty then .error (.noFeatures candidate.typeName) else .ok ⟨member, candidate⟩

end ActionPlan

namespace Plan

/-- The one member of candidates of a record type, whose candidates have none. -/
def actionMember (c : Catalogue) (id : Nat) : Except SchemaError (Option (Placed × Nat)) :=
  match c.actions id with
  | [] => .ok none
  | [(member, candidate)] =>
    if (c.actions candidate).isEmpty then .ok (some (member, candidate))
    else .error (.nestedActionDependent (c.name id) (c.name candidate))
  | members => .error (.multipleActionDependent (c.name id) (members.map (·.1.path)))

/-- Compiles a record type. -/
def compile (c : Catalogue) (r : Registry) (kind : OutputKind) (id : Nat) : Except SchemaError Plan := do
  let line ← LinePlan.compile c r id
  match ← actionMember c id with
  | none => return ⟨kind, line, none⟩
  | some (member, candidate) =>
    let actions ← ActionPlan.ofCandidate member (← LinePlan.compile c r candidate)
    return ⟨kind, line, some actions⟩

/-- Whether examples have a line for each candidate. -/
def isMultiLine (p : Plan) : Bool := p.actions.isSome

end Plan

/-! ## Descriptions -/

namespace Step

def describe (s : Step) : String :=
  let d := s.descriptor
  record "FeatureInfo"
    [("name", quoted d.name), ("path", quoted d.path), ("value_type", quoted d.type.name), ("shape", d.shape.name),
      ("order", toString d.order), ("nullable", if d.isNullable then "true" else "false"),
      ("resolution", s.resolution.name), ("marshaller", quoted s.handle.name)] false

end Step

def Block.describe (b : Block) : String :=
  record "NamespaceInfo"
    [("header", quoted b.runtime.header), ("full_name", quoted b.runtime.fullName),
      ("dense", if b.dense then "true" else "false"), ("features", bracketed (b.steps.map Step.describe))] false

def Plan.describe (p : Plan) : String :=
  record "CompiledSerializer"
    [("example", quoted p.line.typeName), ("kind", p.kind.title), ("layout", bracketed (p.line.blocks.map Block.describe)),
      ("label", optional (p.line.label.map fun label => quoted label.path)),
      ("actions", optional (p.actions.map fun actions => quoted actions.member.path))] true

end FeatureLines
