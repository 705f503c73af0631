import FeatureLines.Proofs.Schema.Opening
import FeatureLines.Proofs.Serializer.Plan

/-!
# Compiling ends

The compiler opens types on a stack and calls itself for the type of the candidates. It does so only when that type has no
candidates of its own, so that it is never called more than twice, one call in the other, also for a type that lists itself
(`Plan.compileOn_eq`).

Main statement: `Catalogue.extract_ends`, how extraction and compiling end for any finite set of types.
-/

namespace FeatureLines

open Relation

/-- Compiles the features of a record type, once they are known. -/
def LinePlan.ofFeatures (c : Catalogue) (r : Registry) (id : Nat) (ds : List Descriptor) :
    Except SchemaError LinePlan := do
  let groups ← groupFeatures (c.name id) ds
  let blocks ← groups.mapM (Block.ofGroup (c.name id) r)
  match c.labels id with
  | [] => return ⟨c.name id, blocks, none⟩
  | [label] => return ⟨c.name id, blocks, some label⟩
  | labels => .error (.multipleLabels (c.name id) (labels.map Placed.path))

namespace Plan

/-- Compiles a record type on a stack of open types. Below the type so many others may be opened, and the compiler may be
called for candidates so often, one call in the other. -/
def compileOn (c : Catalogue) (r : Registry) (kind : OutputKind) (depth : Nat) :
    Nat → List Nat → Nat → Option (Opening Plan)
  | 0, _, _ => none
  | calls + 1, stack, id =>
    (c.openType depth stack .root id).bind fun opened =>
      match opened.result.bind (LinePlan.ofFeatures c r id) with
      | .error failure => some ⟨opened.stack, .error failure⟩
      | .ok line =>
        match actionMember c id with
        | .error failure => some ⟨opened.stack, .error failure⟩
        | .ok none => some ⟨opened.stack, .ok ⟨kind, line, none⟩⟩
        | .ok (some (member, candidate)) =>
          (compileOn c r kind depth calls opened.stack candidate).map fun inner =>
            ⟨inner.stack, inner.result.bind fun plan =>
              (ActionPlan.ofCandidate member plan.line).map fun actions => ⟨kind, line, some actions⟩⟩

variable {c : Catalogue} {r : Registry} {kind : OutputKind} {types : Finset Nat} {id depth : Nat}

/-- The candidates of a type that is compiled have none. -/
lemma actionMember_eq_some {member : Placed} {candidate : Nat}
    (found : actionMember c id = .ok (some (member, candidate))) :
    (member, candidate) ∈ c.actions id ∧ actionMember c candidate = .ok none := by
  unfold actionMember at found
  split at found
  · cases found
  · rename_i one
    split at found
    · rename_i leaf
      cases found
      rw [one, actionMember, List.isEmpty_iff.1 leaf]
      exact ⟨List.mem_cons_self, rfl⟩
    · cases found
  · cases found

/-- One call compiles a type without candidates. -/
lemma compileOn_of_no_candidates (covers : c.Covers types) (mem : id ∈ types) (enough : types.card ≤ depth)
    (alone : actionMember c id = .ok none) (calls : Nat) :
    compileOn c r kind depth (calls + 1) [] id =
      some ⟨[], (LinePlan.compile c r id).map fun line => ⟨kind, line, none⟩⟩ := by
  have compiled : LinePlan.compile c r id = (c.extract .root id).bind (LinePlan.ofFeatures c r id) := rfl
  rw [compileOn, Catalogue.openType_eq_extract covers mem enough, compiled, alone]
  simp only [Option.bind_some]
  cases (c.extract .root id).bind (LinePlan.ofFeatures c r id) <;> rfl

/-- Two calls of the compiler, one in the other, compile any type. -/
theorem compileOn_eq (covers : c.Covers types) (mem : id ∈ types) (enough : types.card ≤ depth) (calls : Nat) :
    compileOn c r kind depth (calls + 2) [] id = some ⟨[], Plan.compile c r kind id⟩ := by
  have compiled : LinePlan.compile c r id = (c.extract .root id).bind (LinePlan.ofFeatures c r id) := rfl
  rw [compileOn, Catalogue.openType_eq_extract covers mem enough, Plan.compile, compiled]
  simp only [Option.bind_some]
  cases (c.extract .root id).bind (LinePlan.ofFeatures c r id) with
  | error failure => rfl
  | ok line =>
    cases found : actionMember c id with
    | error failure => rfl
    | ok action =>
      cases action with
      | none => rfl
      | some action =>
        obtain ⟨member, candidate⟩ := action
        obtain ⟨listed, alone⟩ := actionMember_eq_some found
        have mem' : candidate ∈ types := covers.candidates id mem _ listed
        simp only [compileOn_of_no_candidates covers mem' enough alone, Option.map_some, bind, Except.bind]
        cases LinePlan.compile c r candidate with
        | error failure => rfl
        | ok inner => cases ActionPlan.ofCandidate member inner <;> rfl

/-- A type that lists itself does not compile. -/
lemma compile_of_lists_itself {member : Placed} (lists : (member, id) ∈ c.actions id) :
    ∃ failure, Plan.compile c r kind id = .error failure := by
  cases found : Plan.compile c r kind id with
  | error failure => exact ⟨failure, rfl⟩
  | ok p =>
    obtain ⟨-, -, ⟨none, -⟩ | ⟨place, candidate, actions, one, leaf, -⟩⟩ := compile_spec found
    · rw [none] at lists
      cases lists
    · rw [one, List.mem_singleton] at lists
      cases lists
      rw [one] at leaf
      cases leaf

end Plan

/-- For any finite set of types with their members and candidates. Opening a type ends, with as many types open one below
the other as there are at most, and gives what `extract` gives; the stack of open types is left as it was found, whatever
the result. It fails exactly if a type that can be reached reaches itself, and then for the first member that comes back to
an open type, which is one that reaches itself. Compiling ends too, with two calls of the compiler, and fails for a type
that lists itself. -/
theorem Catalogue.extract_ends {c : Catalogue} {types : Finset Nat} (covers : c.Covers types) {id : Nat}
    (mem : id ∈ types) (scope : Scope) :
    (∀ depth, types.card ≤ depth → c.openType depth [] scope id = some ⟨[], c.extract scope id⟩) ∧
    (∀ depth stack o, c.openType depth stack scope id = some o → o.stack = stack) ∧
    ((∃ failure, c.extract scope id = .error failure) ↔
      ∃ id', ReflTransGen c.Holds id id' ∧ TransGen c.Holds id' id') ∧
    (∀ failure, c.extract scope id = .error failure ↔
      ∃ way e, c.FirstReturn id way e ∧ failure = .recursiveSchema e.type.name e.member) ∧
    (∀ way e, c.FirstReturn id way e → ReflTransGen c.Holds id e.id ∧ TransGen c.Holds e.id e.id) ∧
    ∀ r kind,
      (∀ depth calls, types.card ≤ depth → 2 ≤ calls →
        Plan.compileOn c r kind depth calls [] id = some ⟨[], Plan.compile c r kind id⟩) ∧
      ((∃ member, (member, id) ∈ c.actions id) → ∃ failure, Plan.compile c r kind id = .error failure) := by
  refine ⟨fun depth enough => openType_eq_extract covers mem enough scope,
    fun depth stack o => c.openType_stack depth stack scope id o, extract_fails_iff, fun failure => extract_eq_error_iff,
    fun way e first => ?_, fun r kind => ⟨?_, ?_⟩⟩
  · exact first.returns.cycle (by simp [ReflTransGen.refl])
  · intro depth calls enough two
    obtain ⟨calls, rfl⟩ := Nat.exists_eq_add_of_le' two
    exact Plan.compileOn_eq covers mem enough calls
  · rintro ⟨member, lists⟩
    exact Plan.compile_of_lists_itself lists

/-! ## An example -/

namespace Orchard

/-- An orchard holds two plots, which are of one type, and a tree; a tree holds branches, and a branch holds a tree and an
orchard. A plot lists plots as its candidates. -/
def catalogue : Catalogue :=
  [⟨"Orchard", [⟨"left", false, .nested ⟨"Plot", .record 1⟩⟩, ⟨"right", true, .feature {} ⟨"Plot", .record 1⟩ none⟩,
      ⟨"tree", false, .nested ⟨"Tree", .record 2⟩⟩]⟩,
    ⟨"Plot", [⟨"size", false, .feature {} ⟨"f64", .scalar .numeric⟩ none⟩, ⟨"parts", false, .actions 1⟩]⟩,
    ⟨"Tree", [⟨"height", false, .feature {} ⟨"f64", .scalar .numeric⟩ none⟩,
      ⟨"branch", true, .feature {} ⟨"Branch", .record 3⟩ none⟩]⟩,
    ⟨"Branch", [⟨"part_of", true, .nested ⟨"Tree", .record 2⟩⟩, ⟨"owner", true, .nested ⟨"Orchard", .record 0⟩⟩]⟩]

lemma covers : catalogue.Covers (Finset.range 4) := by
  have members : ∀ id ∈ Finset.range 4, ∀ field ∈ catalogue.fields id, ∀ e ∈ field.edge?, e.id ∈ Finset.range 4 := by
    decide
  refine ⟨?_, by decide⟩
  rintro id mem _ ⟨position, e, edge, rfl⟩
  obtain ⟨field, at', found⟩ := Option.bind_eq_some_iff.1 edge
  exact members id mem field (List.mem_of_getElem? at') e found

end Orchard

/-- An orchard is refused for the tree that a branch is part of, not for its plots, which are met twice, and nor for the
orchard that owns a branch, which comes later. A plot is no recursive type, but it does not compile. -/
theorem Catalogue.extract_ends_orchard :
    Orchard.catalogue.extract .root 0 = .error (.recursiveSchema "Tree" "part_of") ∧
      (∃ way e, Orchard.catalogue.FirstReturn 0 way e ∧ e.type.name = "Tree" ∧
        TransGen Orchard.catalogue.Holds e.id e.id) ∧
      (∃ ds, Orchard.catalogue.extract .root 1 = .ok ds) ∧
      ∀ r kind, ∃ failure, Plan.compile Orchard.catalogue r kind 1 = .error failure := by
  obtain ⟨opens, -, -, failure, cycle, -⟩ := extract_ends Orchard.covers (by decide : 0 ∈ Finset.range 4) .root
  obtain ⟨opens', -, -, -, -, compiles⟩ := extract_ends Orchard.covers (by decide : 1 ∈ Finset.range 4) .root
  -- opening a type is evaluated where extracting is not
  have failed : Orchard.catalogue.extract .root 0 = .error (.recursiveSchema "Tree" "part_of") :=
    congrArg Opening.result (Option.some.inj (opens 4 le_rfl)).symm
  obtain ⟨way, e, first, same⟩ := (failure _).1 failed
  obtain ⟨tree, -⟩ := SchemaError.recursiveSchema.inj same
  have found := congrArg Opening.result (Option.some.inj (opens' 4 le_rfl)).symm
  exact ⟨failed, ⟨way, e, first, tree.symm, (cycle way e first).2⟩, ⟨_, found⟩,
    fun r kind => (compiles r kind).2 ⟨⟨1, "parts"⟩, by decide⟩⟩

end FeatureLines
