import FeatureLines.Serializer.Plan

/-!
# Pools of compiled plans

Compiling is done once. The plans of registries with stateless marshallers only are shared by all registries of the same
content; the plans of any other registry stand in the store of that registry, which its clones have as well. Changing a
registry gives it a store of its own. A store is released with the last registry that has it.

A plan that was compiled keeps its serial number, so that two requests can be seen to give one plan.
-/

namespace FeatureLines

/-- A plan with the number of its compilation. -/
structure Compiled where
  serial : Nat
  plan : Plan

/-- A registry with the number of its store. -/
structure Holder where
  registry : Registry
  store : Nat

/-- Under what a plan is kept: its record type and kind, and where it belongs. -/
inductive Shelf where
  /-- With the content of a registry of stateless marshallers. -/
  | shared (content : List (String × String))
  | owned (store : Nat)
deriving DecidableEq

namespace Holder

/-- Where the plans of a registry belong. -/
def shelf (h : Holder) : Shelf :=
  match h.registry.contentKey? with
  | some content => .shared content
  | none => .owned h.store

end Holder

/-- What tells plans apart that are kept. -/
structure PlanKey where
  shelf : Shelf
  kind : OutputKind
  type : Nat
deriving DecidableEq

/-- The plans that are kept, and the numbers of compilations and stores so far. -/
structure Pool where
  plans : List (PlanKey × Compiled)
  compilations : Nat
  stores : Nat

namespace Pool

def empty : Pool := ⟨[], 0, 0⟩

def hold (pool : Pool) (r : Registry) : Pool × Holder := ({ pool with stores := pool.stores + 1 }, ⟨r, pool.stores⟩)

def keep (pool : Pool) (key : PlanKey) (plan : Plan) : Pool × Compiled :=
  let compiled : Compiled := ⟨pool.compilations, plan⟩
  ({ pool with plans := (key, compiled) :: pool.plans, compilations := pool.compilations + 1 }, compiled)

/-- The line plan of a candidate type, which is kept like any plan. -/
def requestCandidate (pool : Pool) (c : Catalogue) (h : Holder) (kind : OutputKind) (id : Nat) :
    Pool × Except SchemaError LinePlan :=
  match pool.plans.lookup ⟨h.shelf, kind, id⟩ with
  | some compiled => (pool, .ok compiled.plan.line)
  | none =>
    match LinePlan.compile c h.registry id with
    | .error failure => (pool, .error failure)
    | .ok line => ((pool.keep ⟨h.shelf, kind, id⟩ ⟨kind, line, none⟩).1, .ok line)

/-- The candidates of a record type, if it has any. -/
def requestActions (pool : Pool) (c : Catalogue) (h : Holder) (kind : OutputKind) (id : Nat) :
    Pool × Except SchemaError (Option ActionPlan) :=
  match Plan.actionMember c id with
  | .error failure => (pool, .error failure)
  | .ok none => (pool, .ok none)
  | .ok (some (member, candidate)) =>
    let (pool, line) := pool.requestCandidate c h kind candidate
    (pool, line.bind fun line => (ActionPlan.ofCandidate member line).map some)

/-- The plan of a record type for a registry: the kept one, else the one that is compiled, which is then kept. A record
type that does not compile leaves nothing behind for itself. -/
def request (pool : Pool) (c : Catalogue) (h : Holder) (kind : OutputKind) (id : Nat) :
    Pool × Except SchemaError Compiled :=
  match pool.plans.lookup ⟨h.shelf, kind, id⟩ with
  | some compiled => (pool, .ok compiled)
  | none =>
    match LinePlan.compile c h.registry id with
    | .error failure => (pool, .error failure)
    | .ok line =>
      match pool.requestActions c h kind id with
      | (pool, .error failure) => (pool, .error failure)
      | (pool, .ok actions) =>
        let (pool, compiled) := pool.keep ⟨h.shelf, kind, id⟩ ⟨kind, line, actions⟩
        (pool, .ok compiled)

/-- Releases the stores that no registry has any more. -/
def release (pool : Pool) (holders : List Holder) : Pool :=
  let isHeld (key : PlanKey) : Bool :=
    match key.shelf with
    | .shared _ => true
    | .owned store => holders.any (·.store == store)
  { pool with plans := pool.plans.filter fun kept => isHeld kept.1 }

def keeps (pool : Pool) (serial : Nat) : Bool := pool.plans.any (·.2.serial == serial)

end Pool

end FeatureLines
