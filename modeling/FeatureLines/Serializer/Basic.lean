import FeatureLines.Cache
import FeatureLines.Serializer.Serialization
import FeatureLines.Serializer.Validation

/-!
# Serializers

A serializer is a plan with an engine, options and, if asked for, a cache of results. Its subjects are of any type that
comes with the record of a subject; the comparer of the cache says which subjects are equal. Results are numbered, so
that two answers can be seen to be one result.
-/

namespace FeatureLines

/-- An output with the number of the serialization that made it. -/
structure Result where
  serial : Nat
  output : Output

/-- The cache of a serializer with the comparer of its subjects. -/
structure Memory (α η : Type) where
  comparer : Comparer α η
  cache : Cache α η Result

/-- A plan that is ready for use. -/
structure Serializer (α η : Type) where
  recordOf : α → Record
  engine : Engine
  options : Options
  registry : Registry
  plan : Plan
  memory : Option (Memory α η)
  /-- The number of results made so far. -/
  made : Nat

/-- An answer of a serializer: the serializer afterwards, the answer or a failure, and what happened besides. -/
structure Answer (α η ρ : Type) where
  serializer : Serializer α η
  result : Except Error ρ
  events : List Event

namespace Serializer

variable {α η : Type} [DecidableEq η]

/-- A serializer without a cache. Options are checked before the schema. -/
def build (recordOf : α → Record) (c : Catalogue) (id : Nat) (r : Registry) (engine : Engine) (options : Options) :
    Except Error (Serializer α η) := do
  options.validate.mapError Error.config
  let plan ← (Plan.compile c r options.outputKind id).mapError Error.schema
  return ⟨recordOf, engine, options, r, plan, none, 0⟩

/-- A serializer with a cache for subjects that are equal under a comparer. -/
def buildCached (recordOf : α → Record) (comparer : Comparer α η) (c : Catalogue) (id : Nat) (r : Registry)
    (engine : Engine) (options : Options) : Except Error (Serializer α η) := do
  let cache ← (Cache.new options.cacheMaxEntries).mapError Error.config
  let s : Serializer α η ← build recordOf c id r engine options
  return { s with memory := some ⟨comparer, cache⟩ }

/-- Serializes a subject, past the cache. -/
def compute (s : Serializer α η) (default : FloatFormat) (x : α) (target : LabelTarget) : Answer α η Result :=
  let outcome := s.plan.serialize s.engine s.options default (s.recordOf x) target
  ⟨{ s with made := s.made + 1 }, (outcome.result.mapError Error.label).map (⟨s.made, ·⟩), outcome.events⟩

/-- Serializes a subject with its own labels. With a cache, a subject equal to an earlier one has the result of that one,
and nothing happens besides. -/
def serialize (s : Serializer α η) (default : FloatFormat) (x : α) : Answer α η Result :=
  let computed := s.compute default x .none
  match s.memory with
  | none => computed
  | some memory =>
    match memory.cache.getOrCompute memory.comparer x fun cache => (cache, computed.result) with
    | (cache, result) =>
      ⟨{ computed.serializer with memory := some { memory with cache } }, result,
        if cache.misses = memory.cache.misses then [] else computed.events⟩

/-- Serializes a subject with a label given for it. Such a result is never cached. -/
def serializeLabeled (s : Serializer α η) (default : FloatFormat) (x : α) (target : LabelTarget) : Answer α η Result :=
  s.compute default x target

/-- Serializes subjects in order, up to the first failure. -/
def serializeBatch (s : Serializer α η) (default : FloatFormat) : List α → Answer α η (List Result)
  | [] => ⟨s, .ok [], []⟩
  | x :: rest =>
    let first := s.serialize default x
    match first.result with
    | .error failure => ⟨first.serializer, .error failure, first.events⟩
    | .ok result =>
      let others := serializeBatch first.serializer default rest
      ⟨others.serializer, others.result.map (result :: ·), first.events ++ others.events⟩

/-- The plan with the text form. What is compiled does not depend on the kind. -/
def bothForms (s : Serializer α η) : Plan := { s.plan with kind := .nativeAndText }

/-- Serializes a subject in both forms and compares them. -/
def validate (s : Serializer α η) (default : FloatFormat) (x : α) : Except Error ValidationReport × List Event :=
  let outcome := s.bothForms.serialize s.engine s.options default (s.recordOf x) .none
  let report := (outcome.result.mapError Error.label).bind (Output.crossValidate s.engine)
  (report, outcome.events ++ match report with
    | .ok report => report.events
    | .error _ => [])

/-- Drops every cached result. -/
def clearCache (s : Serializer α η) : Serializer α η :=
  { s with memory := s.memory.map fun memory => { memory with cache := memory.cache.clear } }

def cached (s : Serializer α η) : List Result := (s.memory.map (·.cache.results)).getD []

def describe (s : Serializer α η) : String :=
  Text.record "Serializer"
    [("options", s.options.describe), ("registry", s.registry.describe), ("compiled", s.plan.describe),
      ("cached", if s.memory.isSome then "true" else "false")] true

end Serializer

end FeatureLines
