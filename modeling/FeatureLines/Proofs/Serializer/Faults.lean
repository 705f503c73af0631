import FeatureLines.Proofs.First
import FeatureLines.Proofs.Schema.Layout
import FeatureLines.Proofs.Schema.Recursion
import FeatureLines.Proofs.Serializer.Plan

/-!
# Faults of a schema

What can be wrong with a record type, each fault with the error that it is reported as: members that come back to a type, a
dense namespace that is not a single feature's own, a leaf that nothing turns into tokens, several labels, several members
of candidates, and candidates that have candidates, that are faulty themselves, or that contribute nothing.
`Catalogue.faults` lists them in the order of precedence. Faults of a kind are found in the order of declaration, those of
leaves in the order in which the leaves are written.

Main statement: `Plan.compile_eq_error_iff`, compiling fails for the first fault that is present, and for nothing else.
-/

namespace FeatureLines

open Relation

namespace Leaf

/-- What is wrong with a dense namespace among some leaves: it is used sparsely, or else it has several features. -/
inductive Clash (type : String) (leaves : List Leaf) (key : GroupKey) : SchemaError → Prop
  | mixed {leaf : Leaf} (dense : key.dense = true) (mem : leaf ∈ leaves) (sparse : leaf.key = { key with dense := false }) :
      Clash type leaves key (.mixedNamespace type (Namespace.make key.namespaceName key.group).fullName)
  | several (dense : key.dense = true) (unmixed : ∀ leaf ∈ leaves, leaf.key ≠ { key with dense := false })
      (many : 1 < (leaves.filter fun leaf => leaf.key = key).length) :
      Clash type leaves key
        (.multipleDenseFeatures type (Namespace.make key.namespaceName key.group).fullName
          ((leaves.filter fun leaf => leaf.key = key).map fun leaf => path leaf.chain))

/-- Nothing turns the values of a leaf into tokens: no marshaller of its own, none registered for its type, and none that
is built in for the way in which it is to be written. -/
inductive Unresolved (type : String) (r : Registry) (leaf : Leaf) : SchemaError → Prop
  | unrendered (own : leaf.override = none) (registered : r.get? leaf.type = none)
      (enumerized : leaf.attributes.enumerize = true) (rendering : Handle.hasRendering leaf.type = false) :
      Unresolved type r leaf (.unresolvedMarshaller type (path leaf.chain) leaf.type.name)
  | unwritten (own : leaf.override = none) (registered : r.get? leaf.type = none)
      (plain : leaf.attributes.enumerize = false) (builtIn : Handle.builtIn? leaf.type = none) :
      Unresolved type r leaf (.unresolvedMarshaller type (path leaf.chain) leaf.type.name)

end Leaf

namespace Catalogue

/-- Going down from the type, a member comes back to a type that was met on the way. -/
def Recurs (c : Catalogue) (id : Nat) (failure : SchemaError) : Prop :=
  ∃ way e, c.FirstReturn id way e ∧ failure = e.failure

/-- A dense namespace is not the own one of a single feature. -/
def Clashes (c : Catalogue) (id : Nat) (failure : SchemaError) : Prop :=
  ∃ leaves, c.Walk .root 0 (c.fields id) leaves ∧
    First ((Leaf.keys leaves).map (Leaf.Clash (c.name id) leaves)) failure

/-- A leaf has no marshaller. -/
def Unwritten (c : Catalogue) (r : Registry) (id : Nat) (failure : SchemaError) : Prop :=
  ∃ leaves, c.Walk .root 0 (c.fields id) leaves ∧
    First ((Leaf.layout leaves).map (Leaf.Unresolved (c.name id) r)) failure

def ManyLabels (c : Catalogue) (id : Nat) (failure : SchemaError) : Prop :=
  1 < (c.labels id).length ∧ failure = .multipleLabels (c.name id) ((c.labels id).map Placed.path)

def ManyActions (c : Catalogue) (id : Nat) (failure : SchemaError) : Prop :=
  1 < (c.actions id).length ∧ failure = .multipleActionDependent (c.name id) ((c.actions id).map (·.1.path))

/-- The faults of the lines of a record type. -/
def lineFaults (c : Catalogue) (r : Registry) (id : Nat) : List (SchemaError → Prop) :=
  [c.Recurs id, c.Clashes id, c.Unwritten r id, c.ManyLabels id]

/-- The candidates have candidates. -/
def NestedActions (c : Catalogue) (id : Nat) (failure : SchemaError) : Prop :=
  ∃ member candidate, (member, candidate) ∈ c.actions id ∧ c.actions candidate ≠ [] ∧
    failure = .nestedActionDependent (c.name id) (c.name candidate)

/-- The lines of the candidates are faulty. -/
def FaultyCandidate (c : Catalogue) (r : Registry) (id : Nat) (failure : SchemaError) : Prop :=
  ∃ member candidate, (member, candidate) ∈ c.actions id ∧ First (c.lineFaults r candidate) failure

/-- The candidates contribute no namespace. -/
def HollowCandidate (c : Catalogue) (id : Nat) (failure : SchemaError) : Prop :=
  ∃ member candidate, (member, candidate) ∈ c.actions id ∧ c.Walk .root 0 (c.fields candidate) [] ∧
    failure = .noFeatures (c.name candidate)

/-- The faults of a record type, in the order of precedence. -/
def faults (c : Catalogue) (r : Registry) (id : Nat) : List (SchemaError → Prop) :=
  c.lineFaults r id ++ [c.ManyActions id, c.NestedActions id, c.FaultyCandidate r id, c.HollowCandidate id]

end Catalogue

/-! ## Namespaces -/

namespace Leaf

/-- What is wrong with a group of descriptors is what is wrong with the namespace of their leaves. -/
lemma problem?_eq_some (type : String) (leaves : List Leaf) (key : GroupKey) (failure : SchemaError) :
    Group.problem? type (Group.collect (leaves.map descriptor))
        ⟨key, (leaves.filter fun leaf => leaf.key = key).map descriptor⟩ = some failure ↔
      Clash type leaves key failure := by
  have sparse : ((Group.collect (leaves.map descriptor)).any fun other => other.key = { key with dense := false }) = true ↔
      ∃ leaf ∈ leaves, leaf.key = { key with dense := false } := by
    rw [collect_descriptors, List.any_map, List.any_eq_true, ← mem_keys]
    simp
  unfold Group.problem?
  simp only [List.length_map, List.map_map, Group.runtime]
  constructor
  · intro found
    split at found
    · rename_i dense
      split at found
      · rename_i mixed
        obtain ⟨leaf, mem, same⟩ := sparse.1 mixed
        cases found
        exact .mixed dense mem same
      · rename_i unmixed
        split at found
        · rename_i many
          cases found
          exact .several dense (fun leaf mem same => unmixed (sparse.2 ⟨leaf, mem, same⟩)) many
        · cases found
    · cases found
  · intro clash
    cases clash with
    | mixed dense mem same => rw [if_pos dense, if_pos (sparse.2 ⟨_, mem, same⟩)]
    | several dense unmixed many =>
      have unmixed : ¬((Group.collect (leaves.map descriptor)).any
          fun other => other.key = { key with dense := false }) = true := fun mixed => by
        obtain ⟨leaf, mem, same⟩ := sparse.1 mixed
        exact unmixed leaf mem same
      rw [if_pos dense, if_neg unmixed, if_pos many]
      rfl

end Leaf

/-- Grouping reports the first namespace with something wrong. -/
lemma groupFeatures_reports (type : String) (leaves : List Leaf) :
    (groupFeatures type (leaves.map Leaf.descriptor)).Reports ((Leaf.keys leaves).map (Leaf.Clash type leaves)) := by
  intro failure
  rw [First.map_iff (Leaf.problem?_eq_some type leaves)]
  have search (all : List Group) : (Group.collect (leaves.map Leaf.descriptor)).findSome? (Group.problem? type all) =
      (Leaf.keys leaves).findSome? fun key => Group.problem? type all
        ⟨key, (leaves.filter fun leaf => leaf.key = key).map Leaf.descriptor⟩ := by
    rw [Leaf.collect_descriptors, List.findSome?_map]
    rfl
  rw [groupFeatures_eq_error_iff, search]

/-! ## Marshallers -/

/-- A leaf without a marshaller is reported. -/
lemma resolve_reports (type : String) (r : Registry) (leaf : Leaf) :
    (resolve type r leaf.descriptor).Reports [leaf.Unresolved type r] := by
  intro failure
  rw [First.singleton_iff]
  constructor
  · intro failed
    unfold resolve at failed
    split at failed
    · cases failed
    · rename_i own
      split at failed
      · cases failed
      · rename_i registered
        simp only at failed
        split at failed
        · cases failed
        · rename_i missing
          cases failed
          split at missing
          · rename_i enumerized
            refine .unrendered own registered enumerized ?_
            cases rendering : Handle.hasRendering leaf.type with
            | false => rfl
            | true =>
              rw [Option.map_eq_none_iff, Handle.enumerizing?] at missing
              rw [show Handle.hasRendering leaf.descriptor.type = true from rendering] at missing
              cases missing
          · rename_i plain
            exact .unwritten own registered (Bool.eq_false_iff.2 plain) (Option.map_eq_none_iff.1 missing)
  · intro unresolved
    cases unresolved with
    | unrendered own registered enumerized rendering =>
      simp [resolve, Leaf.descriptor, own, registered, enumerized, Handle.enumerizing?, rendering]
    | unwritten own registered plain builtIn =>
      simp [resolve, Leaf.descriptor, own, registered, plain, builtIn]

/-- The leaves of a namespace are bound in the order in which they are written. -/
lemma Block.ofGroup_reports (type : String) (r : Registry) (g : LeafGroup) :
    (Block.ofGroup type r g.described).Reports (g.leaves.map (Leaf.Unresolved type r)) := by
  have steps : ((g.leaves.map Leaf.descriptor).mapM fun d => resolve type r d >>= fun found =>
      Except.ok (⟨d, found.1, found.2⟩ : Step)).Reports (g.leaves.map (Leaf.Unresolved type r)) := by
    rw [List.mapM_map, List.map_eq_flatMap]
    refine .mapM fun leaf _ => ?_
    have bound := (resolve_reports type r leaf).bind
      fun found _ => Except.Reports.ok (⟨leaf.descriptor, found.1, found.2⟩ : Step)
    rwa [List.append_nil] at bound
  have done := steps.bind fun steps _ => Except.Reports.ok (⟨g.described.runtime, g.described.key.dense, steps⟩ : Block)
  rwa [List.append_nil] at done

lemma blocks_reports (type : String) (r : Registry) (leaves : List Leaf) :
    (((Leaf.groups leaves).map LeafGroup.described).mapM (Block.ofGroup type r)).Reports
      ((Leaf.layout leaves).map (Leaf.Unresolved type r)) := by
  rw [List.mapM_map, Leaf.layout, List.map_flatMap]
  exact .mapM fun g _ => Block.ofGroup_reports type r g

/-! ## Lines -/

namespace Catalogue

variable {c : Catalogue} {r : Registry} {id : Nat} {leaves : List Leaf} {failure : SchemaError}

lemma clashes_iff (walk : c.Walk .root 0 (c.fields id) leaves) :
    c.Clashes id failure ↔ First ((Leaf.keys leaves).map (Leaf.Clash (c.name id) leaves)) failure := by
  refine ⟨fun ⟨leaves', walk', first⟩ => ?_, fun first => ⟨leaves, walk, first⟩⟩
  rwa [walk.unique walk']

lemma unwritten_iff (walk : c.Walk .root 0 (c.fields id) leaves) :
    c.Unwritten r id failure ↔ First ((Leaf.layout leaves).map (Leaf.Unresolved (c.name id) r)) failure := by
  refine ⟨fun ⟨leaves', walk', first⟩ => ?_, fun first => ⟨leaves, walk, first⟩⟩
  rwa [walk.unique walk']

lemma extract_reports (c : Catalogue) (id : Nat) : (c.extract .root id).Reports [c.Recurs id] := fun failure => by
  rw [First.singleton_iff, extract_eq_error_iff]
  rfl

end Catalogue

/-- Compiling a line reports the first fault of its record type. -/
theorem LinePlan.compile_reports (c : Catalogue) (r : Registry) (id : Nat) :
    (LinePlan.compile c r id).Reports (c.lineFaults r id) := by
  refine (c.extract_reports id).bind fun ds extracted => ?_
  obtain ⟨leaves, walk, rfl⟩ := Catalogue.extract_eq_walk extracted
  -- the walk is the only one, so that its faults are those of the type
  have clashes (failure : SchemaError) : First ((Leaf.keys leaves).map (Leaf.Clash (c.name id) leaves)) failure ↔
      First [c.Clashes id] failure := by
    rw [First.singleton_iff, Catalogue.clashes_iff walk]
  have unwritten (failure : SchemaError) : First ((Leaf.layout leaves).map (Leaf.Unresolved (c.name id) r)) failure ↔
      First [c.Unwritten r id] failure := by
    rw [First.singleton_iff, Catalogue.unwritten_iff walk]
  refine ((groupFeatures_reports (c.name id) leaves).congr clashes).bind fun groups grouped => ?_
  rw [groupFeatures_eq_groups grouped]
  refine ((blocks_reports (c.name id) r leaves).congr unwritten).bind fun blocks _ => ?_
  intro failure
  rw [First.singleton_iff, Catalogue.ManyLabels]
  split
  · rename_i labels
    rw [labels]
    exact ⟨nofun, fun ⟨many, _⟩ => absurd many (by simp)⟩
  · rename_i label labels
    rw [labels]
    exact ⟨nofun, fun ⟨many, _⟩ => absurd many (by simp)⟩
  · rename_i none one
    have many : 1 < (c.labels id).length := by
      match labels : c.labels id with
      | [] => exact absurd labels none
      | [label] => exact absurd labels (one label)
      | _ :: _ :: _ => simp
    exact ⟨fun same => ⟨many, (Except.error.inj same).symm⟩, fun ⟨_, same⟩ => congrArg _ same.symm⟩

namespace Plan

variable {c : Catalogue} {r : Registry} {id : Nat}

/-- The members of candidates are counted before it is asked what the candidates are. -/
lemma actionMember_reports (c : Catalogue) (id : Nat) :
    (actionMember c id).Reports [c.ManyActions id, c.NestedActions id] := by
  intro failure
  rw [First.cons_iff, First.singleton_iff]
  unfold actionMember Catalogue.ManyActions Catalogue.NestedActions
  split
  · rename_i none
    simp [none]
  · rename_i member candidate one
    rw [one]
    split
    · rename_i leaf
      simp [List.isEmpty_iff.1 leaf]
    · rename_i nested
      have nested : c.actions candidate ≠ [] := fun nil => nested (List.isEmpty_iff.2 nil)
      constructor
      · intro same
        exact .inr ⟨by simp, member, candidate, List.mem_singleton_self _, nested, (Except.error.inj same).symm⟩
      · rintro (⟨many, -⟩ | ⟨-, member', candidate', mem, -, rfl⟩)
        · exact absurd many (by simp)
        · cases List.mem_singleton.1 mem
          rfl
  · rename_i none one
    have many : 1 < (c.actions id).length := by
      match actions : c.actions id with
      | [] => exact absurd actions none
      | [(member, candidate)] => exact absurd actions (one member candidate)
      | _ :: _ :: _ => simp
    constructor
    · intro same
      exact .inl ⟨many, (Except.error.inj same).symm⟩
    · rintro (⟨-, rfl⟩ | ⟨few, -⟩)
      · rfl
      · exact absurd ⟨many, rfl⟩ (few _)

/-- The member of candidates that is found is the only one. -/
lemma actions_of_actionMember {found : Option (Placed × Nat)} (ok : actionMember c id = .ok found) :
    c.actions id = found.toList := by
  unfold actionMember at ok
  split at ok
  · rename_i none
    cases ok
    exact none
  · rename_i one
    split at ok
    · cases ok
      exact one
    · cases ok
  · cases ok

/-- Candidates are refused when they contribute no namespace. -/
lemma ofCandidate_reports {member : Placed} {candidate : Nat} {line : LinePlan}
    (actions : c.actions id = [(member, candidate)]) (compiled : LinePlan.compile c r candidate = .ok line) :
    (ActionPlan.ofCandidate member line).Reports [c.HollowCandidate id] := by
  obtain ⟨leaves, realizes⟩ := LinePlan.compile_realizes compiled
  intro failure
  rw [First.singleton_iff, ActionPlan.ofCandidate, realizes.typeName, Catalogue.HollowCandidate, actions]
  have hollow : line.blocks.isEmpty = true ↔ leaves = [] := by
    rw [List.isEmpty_iff_length_eq_zero, ← realizes.blocks.length_eq, List.length_eq_zero_iff, Leaf.groups_eq_nil_iff]
  split
  · rename_i empty
    have walk := realizes.walk
    rw [hollow.1 empty] at walk
    refine ⟨fun same => ⟨member, candidate, List.mem_singleton_self _, walk, (Except.error.inj same).symm⟩, ?_⟩
    rintro ⟨member', candidate', mem, -, rfl⟩
    cases List.mem_singleton.1 mem
    rfl
  · rename_i filled
    refine ⟨nofun, ?_⟩
    rintro ⟨member', candidate', mem, walk, rfl⟩
    cases List.mem_singleton.1 mem
    exact absurd (hollow.2 (realizes.walk.unique walk)) filled

/-- Compiling reports the first fault of the record type. -/
lemma compile_reports (c : Catalogue) (r : Registry) (kind : OutputKind) (id : Nat) :
    (Plan.compile c r kind id).Reports (c.faults r id) := by
  refine (LinePlan.compile_reports c r id).bind fun line _ => ?_
  refine (actionMember_reports c id).bind fun found ok => ?_
  have actions := actions_of_actionMember ok
  cases found with
  | none =>
    -- without candidates there is nothing that could be wrong with them
    refine (Except.Reports.ok _).congr fun failure => ⟨nofun, fun first => ?_⟩
    obtain ⟨fault, mem, failure, present⟩ := First.exists_iff.1 ⟨failure, first⟩
    rcases List.mem_pair.1 mem with rfl | rfl
    · obtain ⟨_, _, mem, -⟩ := present
      rw [actions] at mem
      cases mem
    · obtain ⟨_, _, mem, -⟩ := present
      rw [actions] at mem
      cases mem
  | some found =>
    obtain ⟨member, candidate⟩ := found
    have faulty (failure : SchemaError) :
        First (c.lineFaults r candidate) failure ↔ First [c.FaultyCandidate r id] failure := by
      rw [First.singleton_iff, Catalogue.FaultyCandidate, actions]
      constructor
      · intro first
        exact ⟨member, candidate, List.mem_singleton_self _, first⟩
      · rintro ⟨member', candidate', mem, first⟩
        cases List.mem_singleton.1 mem
        exact first
    refine ((LinePlan.compile_reports c r candidate).congr faulty).bind fun inner compiled => ?_
    exact (ofCandidate_reports actions compiled).bind fun _ _ => .ok _

/-- Compiling fails for the first fault of the record type, in the order of precedence, and for nothing else. It fails
when there is any fault, and it fails for recursion when a type that can be reached reaches itself. -/
theorem compile_eq_error_iff (c : Catalogue) (r : Registry) (kind : OutputKind) (id : Nat) :
    (∀ failure, Plan.compile c r kind id = .error failure ↔ First (c.faults r id) failure) ∧
      ((∃ failure, Plan.compile c r kind id = .error failure) ↔ ∃ fault ∈ c.faults r id, ∃ failure, fault failure) ∧
      ((∃ failure, c.Recurs id failure) ↔ ∃ id', ReflTransGen c.Holds id id' ∧ TransGen c.Holds id' id') := by
  have reports := compile_reports c r kind id
  refine ⟨reports, ?_, ?_⟩
  · rw [← First.exists_iff]
    exact exists_congr reports
  · have cycle : (∃ failure, c.extract .root id = .error failure) ↔ _ := Catalogue.extract_fails_iff
    rw [← cycle]
    exact exists_congr fun failure => Catalogue.extract_eq_error_iff.symm

end Plan

end FeatureLines
