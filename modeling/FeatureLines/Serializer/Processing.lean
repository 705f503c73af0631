import FeatureLines.Serializer.Basic

/-!
# Batches in any order

The items of a batch may be processed side by side. A cache is locked twice for an item, when it is looked for and when
what was computed is stored, and between the two others may use it. So a batch goes on step by step, and a schedule says
which item is next each time.
-/

namespace FeatureLines

/-- How far the processing of an item is. -/
inductive Progress where
  | waiting
  /-- The item was not found in the cache, and what was computed for it is not stored yet. -/
  | computed (result : Result)
  | done (result : Except Error Result)

/-- How far an item is that was looked for. -/
def Progress.ofLook : Option Result → Except Error Result → Progress
  | some stored, _ => .done (.ok stored)
  | none, .ok result => .computed result
  | none, .error failure => .done (.error failure)

namespace Serializer

variable {α η : Type} [DecidableEq η]

/-- One step in the processing of an item. -/
def advance (s : Serializer α η) (default : FloatFormat) (x : α) : Progress → Serializer α η × Progress
  | .waiting =>
    let computed := s.compute default x .none
    match s.memory with
    | none => (computed.serializer, .done computed.result)
    | some memory =>
      let (cache, found) := memory.cache.look memory.comparer x
      ({ computed.serializer with memory := some { memory with cache } }, .ofLook found computed.result)
  | .computed result =>
    match s.memory with
    | none => (s, .done (.ok result))
    | some memory =>
      let (cache, stored) := memory.cache.settle memory.comparer x result
      ({ s with memory := some { memory with cache } }, .done (.ok stored))
  | .done result => (s, .done result)

end Serializer

/-- A serializer with the items it processes. -/
structure Processing (α η : Type) where
  serializer : Serializer α η
  items : List (α × Progress)

namespace Processing

variable {α η : Type} [DecidableEq η]

def start (s : Serializer α η) (xs : List α) : Processing α η := ⟨s, xs.map (·, .waiting)⟩

/-- One step for one item. -/
def step (default : FloatFormat) (b : Processing α η) (i : Nat) : Processing α η :=
  match b.items[i]? with
  | some (x, progress) =>
    let next := b.serializer.advance default x progress
    ⟨next.1, b.items.set i (x, next.2)⟩
  | none => b

/-- The steps of a schedule. -/
def run (default : FloatFormat) (b : Processing α η) (schedule : List Nat) : Processing α η := schedule.foldl (step default) b

/-- What a batch comes to: the results of all items in their order, or the failure of one, for which the others need not be
done. -/
def Gives (b : Processing α η) : Except Error (List Result) → Prop
  | .ok results => b.items.map Prod.snd = results.map fun result => .done (.ok result)
  | .error failure => ∃ item ∈ b.items, item.2 = .done (.error failure)

end Processing

end FeatureLines
