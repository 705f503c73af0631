import FeatureLines.Serializer.Pool

/-!
# Registries and the plans that are kept for them

A program makes, clones, changes and drops registries, and asks for the plans of record types. A clone is the same
registry with the same store; registering a marshaller replaces the registry by another with a store of its own.
-/

namespace FeatureLines

/-- The registries of a program in the order they were made, with the pool of their plans. -/
structure Registries where
  pool : Pool
  /-- A registry that was dropped leaves its place. -/
  holders : List (Option Holder)
  /-- The number of registrations so far. -/
  registrations : Nat

namespace Registries

def empty : Registries := ⟨.empty, [], 0⟩

def holder? (s : Registries) (i : Nat) : Option Holder := s.holders[i]?.join

/-- Releases the plans that no registry has any more. -/
def settle (s : Registries) : Registries := { s with pool := s.pool.release (s.holders.filterMap id) }

/-- A registry more, with nothing registered. -/
def create (s : Registries) : Registries :=
  let (pool, holder) := s.pool.hold .empty
  { s with pool, holders := s.holders ++ [some holder] }

def clone (s : Registries) (i : Nat) : Registries :=
  match s.holder? i with
  | some holder => { s with holders := s.holders ++ [some holder] }
  | none => s

def drop (s : Registries) (i : Nat) : Registries := settle { s with holders := s.holders.set i none }

/-- Binds a marshaller to a type in a registry, which leaves the store that it may share with its clones. -/
def register (s : Registries) (i : Nat) (type : ValueType) (handle : Handle) (isStateless : Bool) : Registries :=
  match s.holder? i with
  | some holder =>
    let (pool, holder) := s.pool.hold (holder.registry.register type ⟨handle, s.registrations, isStateless⟩)
    settle { pool, holders := s.holders.set i (some holder), registrations := s.registrations + 1 }
  | none => s

/-- The plan of a record type for a registry. -/
def request (s : Registries) (c : Catalogue) (h : Holder) (kind : OutputKind) (id : Nat) :
    Registries × Except SchemaError Compiled :=
  let (pool, result) := s.pool.request c h kind id
  ({ s with pool }, result)

/-- What a program does with its registries, which it names by their places. -/
inductive Action where
  | create
  | clone (i : Nat)
  | register (i : Nat) (type : ValueType) (handle : Handle) (isStateless : Bool)
  | request (i : Nat) (kind : OutputKind) (id : Nat)
  | drop (i : Nat)

/-- One action; one on a registry that is not there changes nothing. -/
def perform (c : Catalogue) (s : Registries) : Action → Registries
  | .create => s.create
  | .clone i => s.clone i
  | .register i type handle isStateless => s.register i type handle isStateless
  | .request i kind id =>
    match s.holder? i with
    | some holder => (s.request c holder kind id).1
    | none => s
  | .drop i => s.drop i

def run (c : Catalogue) (s : Registries) (actions : List Action) : Registries := actions.foldl (perform c) s

end Registries

end FeatureLines
