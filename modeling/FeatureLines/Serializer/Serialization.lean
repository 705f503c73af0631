import FeatureLines.Marshal.Context
import FeatureLines.Serializer.Plan

/-!
# Serialization

How a record is written along its plan. A record without candidates is one line; a record with candidates is a line that
they share, with the record's own namespaces, and then a line for each candidate. A label given with the call takes the
place of the label of the line it is meant for.
-/

namespace FeatureLines

/-- For which line a label is given with a call. -/
inductive LabelTarget where
  | none
  | whole (label : Label)
  | action (index : Nat) (label : Label)
deriving DecidableEq

def LabelTarget.describe : LabelTarget → String
  | none => "None"
  | whole label => "Example(" ++ Text.quoted label.text ++ ")"
  | action index label => Text.record "Action" [("index", toString index), ("label", Text.quoted label.text)] false

/-- A context with a failure that stopped the writing to it, if any. -/
structure Attempt where
  context : Context
  failure : Option LabelError

namespace Step

/-- Writes a feature, if its value is there. -/
def emit (s : Step) (space : Namespace) (root : Record) (c : Context) : Context :=
  match s.descriptor.value? root with
  | some cell => c.run (s.handle.write space s.descriptor.feature cell)
  | none => c

end Step

namespace Block

/-- Room for a feature from every step; dense vectors make room for themselves. -/
def room (b : Block) : Nat := if b.dense then 0 else b.steps.length

/-- Writes a namespace. -/
def emit (b : Block) (root : Record) (c : Context) : Context :=
  let c := c.beginNamespace b.runtime
  let c := if b.room = 0 then c else c.preallocate b.room
  (b.steps.foldl (fun c step => step.emit b.runtime root c) c).endNamespace

end Block

namespace LinePlan

/-- Writes the namespaces of a record. -/
def emitBlocks (p : LinePlan) (root : Record) (c : Context) : Context :=
  p.blocks.foldl (fun c block => block.emit root c) c

def ownLabel? (p : LinePlan) (root : Record) : Option Label :=
  match p.label.bind fun label => root.field? label.position with
  | some (.leaf _ (.label label)) => some label
  | _ => none

/-- Writes a line. A refused label leaves the line open. -/
def emitLine (p : LinePlan) (root : Record) (label : Option Label) (c : Context) : Attempt :=
  let c := c.startLine
  match label <|> p.ownLabel? root with
  | none => ⟨(p.emitBlocks root c).endLine, none⟩
  | some label =>
    match c.writeLabel label.text with
    | .ok c => ⟨(p.emitBlocks root c).endLine, none⟩
    | .error failure => ⟨c, some failure⟩

end LinePlan

namespace ActionPlan

def candidates (a : ActionPlan) (root : Record) : List Record :=
  match root.field? a.member.position with
  | some (.candidates _ items) => items
  | _ => []

/-- The label that a target gives to the candidate at an index. -/
def labelAt (target : LabelTarget) (index : Nat) : Option Label :=
  match target with
  | .action wanted label => if wanted = index then some label else none
  | _ => none

/-- Writes a line for every candidate from an index on, up to the first refused label. -/
def emitFrom (a : ActionPlan) (target : LabelTarget) (index : Nat) (c : Context) : List Record → Attempt
  | [] => ⟨c, none⟩
  | candidate :: rest =>
    let attempt := a.candidate.emitLine candidate (labelAt target index) c
    match attempt.failure with
    | some _ => attempt
    | none => a.emitFrom target (index + 1) attempt.context rest

end ActionPlan

namespace Plan

def misfit? (p : Plan) (root : Record) (target : LabelTarget) : Option LabelError :=
  match p.actions, target with
  | none, .action _ _ => some (.noActions p.line.typeName)
  | some _, .whole _ => some (.hasActions p.line.typeName)
  | some actions, .action index _ =>
    let count := (actions.candidates root).length
    if count ≤ index then some (.noSuchAction index count p.line.typeName) else none
  | _, _ => none

/-- Writes a record whose target fits. -/
def emit (p : Plan) (root : Record) (target : LabelTarget) (c : Context) : Attempt :=
  match p.actions with
  | none =>
    p.line.emitLine root (match target with
      | .whole label => some label
      | _ => none) c
  | some actions =>
    let c := { c with multiLine := true }.startLine
    match c.writeLabel ParsedLabel.sharedText with
    | .error failure => ⟨c, some failure⟩
    | .ok c => actions.emitFrom target 0 (p.line.emitBlocks root c).endLine (actions.candidates root)

/-- Writes a record to a context. A target that does not fit is found before anything is written. -/
def serializeInto (p : Plan) (root : Record) (target : LabelTarget) (c : Context) : Attempt :=
  match p.misfit? root target with
  | some failure => ⟨c, some failure⟩
  | none => p.emit root target c

/-- What a serialization gave: an output or a failure, and what happened besides. -/
structure Outcome where
  result : Except LabelError Output
  events : List Event

/-- Writes a record to a context of its own, with text if the plan is for text. -/
def serialize (p : Plan) (engine : Engine) (options : Options) (default : FloatFormat) (root : Record)
    (target : LabelTarget) : Outcome :=
  let attempt := p.serializeInto root target
    { Context.new engine options default with text := decide (p.kind = .nativeAndText) }
  match attempt.failure with
  | some failure => ⟨.error failure, attempt.context.events⟩
  | none => ⟨.ok attempt.context.finish, attempt.context.events⟩

end Plan

end FeatureLines
