import Mathlib.Data.List.Basic
import FeatureLines.Proofs.Schema.Walk
import FeatureLines.Schema.Grouping

/-!
# Groups of leaves

The groups of some features are their keys as they are first met, each with the features of the key in order
(`Group.collect_eq`). What comes through the checks is proper: a dense group has one feature, and namespace and group to
itself (`groupFeatures_proper`). A walk is grouped in the same way, and `groupFeatures_eq_groups` says that grouping the
descriptors of its leaves is grouping the leaves.
-/

namespace FeatureLines

/-- One more member is kept if it is met for the first time. -/
lemma eraseDups_concat {α : Type} [BEq α] [LawfulBEq α] [DecidableEq α] (as : List α) (b : α) :
    (as ++ [b]).eraseDups = as.eraseDups ++ if b ∈ as then [] else [b] := by
  rw [List.eraseDups_append]
  by_cases mem : b ∈ as <;> simp [List.removeAll, mem, List.eraseDups_cons]

lemma nodup_eraseDups {α : Type} [BEq α] [LawfulBEq α] [DecidableEq α] (as : List α) : as.eraseDups.Nodup := by
  induction as using List.reverseRecOn with
  | nil => exact List.nodup_nil
  | append_singleton as b ih =>
    rw [eraseDups_concat]
    split
    · rwa [List.append_nil]
    · rename_i fresh
      refine List.nodup_append.2 ⟨ih, by simp, fun a mem a' mem' same => fresh ?_⟩
      rw [← List.mem_singleton.1 mem', ← same]
      exact List.mem_eraseDups.1 mem

namespace Group

lemma collect_append_singleton (ds : List Descriptor) (d : Descriptor) : collect (ds ++ [d]) = add d (collect ds) := by
  simp [collect]

/-- Adding a feature to groups that are given by their keys. -/
lemma add_map (d : Descriptor) {keys : List GroupKey} (distinct : keys.Nodup) (features : GroupKey → List Descriptor) :
    add d (keys.map fun key => ⟨key, features key⟩) =
      (keys.map fun key => ⟨key, features key ++ if d.key = key then [d] else []⟩) ++
        if d.key ∈ keys then [] else [⟨d.key, [d]⟩] := by
  induction keys with
  | nil => rfl
  | cons key keys ih =>
    obtain ⟨fresh, distinct⟩ := List.nodup_cons.1 distinct
    rw [List.map_cons, List.map_cons, add]
    split
    · rename_i same
      simp only at same
      subst same
      have others : keys.map (fun key => (⟨key, features key ++ if d.key = key then [d] else []⟩ : Group)) =
          keys.map fun key => ⟨key, features key⟩ := by
        refine List.map_congr_left fun key mem => ?_
        rw [if_neg (fun same : d.key = key => fresh (same ▸ mem)), List.append_nil]
      simp [others]
    · rename_i other
      have other : d.key ≠ key := fun same => other same.symm
      rw [ih distinct]
      simp [other]

/-- The groups of some features: their keys as they are first met, each with the features of the key. -/
theorem collect_eq (ds : List Descriptor) :
    collect ds = (ds.map Descriptor.key).eraseDups.map fun key => ⟨key, ds.filter fun d => d.key = key⟩ := by
  induction ds using List.reverseRecOn with
  | nil => rfl
  | append_singleton ds d ih =>
    rw [collect_append_singleton, ih, add_map d (nodup_eraseDups _), List.map_append, List.map_singleton,
      eraseDups_concat, List.map_append]
    have features (key : GroupKey) : ((ds ++ [d]).filter fun d => d.key = key) =
        (ds.filter fun d => d.key = key) ++ if d.key = key then [d] else [] := by
      rw [List.filter_append]
      by_cases same : d.key = key <;> simp [same]
    simp only [features, List.mem_eraseDups]
    refine congrArg _ ?_
    split
    · rfl
    · rename_i fresh
      -- a key that is met for the first time has no features yet
      have none : (ds.filter fun other => other.key = d.key) = [] := by
        refine List.filter_eq_nil_iff.2 fun other mem same => fresh ?_
        exact List.mem_map.2 ⟨other, mem, by simpa using same⟩
      simp [none]

/-- Groups have features, all of their own key, and no two groups are of one key. A dense group has one feature, and no
other group is of its namespace and group. -/
structure Proper (gs : List Group) : Prop where
  keys : (gs.map Group.key).Nodup
  filled : ∀ g ∈ gs, g.features ≠ []
  own : ∀ g ∈ gs, ∀ d ∈ g.features, d.key = g.key
  unmixed : ∀ g ∈ gs, g.key.dense = true → ∀ g' ∈ gs, g'.key ≠ { g.key with dense := false }
  alone : ∀ g ∈ gs, g.key.dense = true → g.features.length = 1

/-- Sorting the features of groups keeps them proper. -/
lemma Proper.sorted {gs : List Group} (h : Proper gs) : Proper (gs.map Group.sorted) where
  keys := by
    have same : (gs.map Group.sorted).map Group.key = gs.map Group.key := by
      rw [List.map_map]
      rfl
    rw [same]
    exact h.keys
  filled := by
    rw [List.forall_mem_map]
    intro g mem
    have same := (List.mergeSort_perm g.features fun a b => a.order ≤ b.order).length_eq
    exact List.length_pos_iff.1 (same.symm ▸ List.length_pos_iff.2 (h.filled g mem))
  own := by
    rw [List.forall_mem_map]
    intro g mem d of
    exact h.own g mem d ((List.mergeSort_perm _ _).mem_iff.1 of)
  unmixed := by
    rw [List.forall_mem_map]
    intro g mem dense
    rw [List.forall_mem_map]
    exact h.unmixed g mem dense
  alone := by
    rw [List.forall_mem_map]
    intro g mem dense
    exact (List.mergeSort_perm _ _).length_eq.trans (h.alone g mem dense)

/-- Nothing is wrong with a dense group that is unmixed and has one feature at most. -/
lemma problem?_eq_none {type : String} {all : List Group} {g : Group} (fine : g.problem? type all = none)
    (dense : g.key.dense = true) :
    (∀ other ∈ all, other.key ≠ { g.key with dense := false }) ∧ g.features.length ≤ 1 := by
  unfold problem? at fine
  rw [if_pos dense] at fine
  split at fine
  · cases fine
  · rename_i unmixed
    split at fine
    · cases fine
    · rename_i few
      exact ⟨fun other mem same => unmixed (List.any_eq_true.2 ⟨other, mem, decide_eq_true same⟩), Nat.le_of_not_lt few⟩

end Group

/-- Grouping fails for the first group with something wrong. -/
lemma groupFeatures_eq_error_iff {type : String} {ds : List Descriptor} {failure : SchemaError} :
    groupFeatures type ds = .error failure ↔
      (Group.collect ds).findSome? (Group.problem? type (Group.collect ds)) = some failure := by
  unfold groupFeatures
  simp only
  split
  · rename_i problem found
    rw [found]
    exact ⟨fun same => congrArg _ (Except.error.inj same), fun same => congrArg _ (Option.some.inj same)⟩
  · rename_i fine
    rw [fine]
    exact ⟨nofun, nofun⟩

/-- Grouping succeeds when nothing is wrong with any group, and then each group is sorted. -/
lemma groupFeatures_eq_ok_iff {type : String} {ds : List Descriptor} {gs : List Group} :
    groupFeatures type ds = .ok gs ↔
      (Group.collect ds).findSome? (Group.problem? type (Group.collect ds)) = none ∧
        (Group.collect ds).map Group.sorted = gs := by
  unfold groupFeatures
  simp only
  split
  · rename_i problem found
    rw [found]
    exact ⟨nofun, nofun⟩
  · rename_i fine
    rw [fine]
    exact ⟨fun same => ⟨rfl, Except.ok.inj same⟩, fun same => congrArg _ same.2⟩

/-- Features are grouped properly, if at all. -/
theorem groupFeatures_proper {type : String} {ds : List Descriptor} {gs : List Group}
    (ok : groupFeatures type ds = .ok gs) : Group.Proper gs := by
  obtain ⟨fine, rfl⟩ := groupFeatures_eq_ok_iff.1 ok
  have fine {g : Group} (mem : g ∈ Group.collect ds) := Group.problem?_eq_none (List.findSome?_eq_none_iff.1 fine g mem)
  have filled {g : Group} (mem : g ∈ Group.collect ds) : g.features ≠ [] := by
    rw [Group.collect_eq] at mem
    obtain ⟨key, known, rfl⟩ := List.mem_map.1 mem
    obtain ⟨d, of, same⟩ := List.mem_map.1 (List.mem_eraseDups.1 known)
    exact List.ne_nil_of_mem (List.mem_filter.2 ⟨of, decide_eq_true same⟩)
  refine Group.Proper.sorted ⟨?_, fun g => filled, ?_, fun g mem dense => (fine mem dense).1, fun g mem dense => ?_⟩
  · rw [Group.collect_eq, List.map_map]
    exact (List.map_id _).symm ▸ nodup_eraseDups _
  · rw [Group.collect_eq, List.forall_mem_map]
    intro key _ d of
    exact of_decide_eq_true (List.mem_filter.1 of).2
  · exact Nat.le_antisymm (fine mem dense).2 (List.length_pos_iff.2 (filled mem))

/-! ## Groups of leaves -/

/-- The leaves of one namespace. -/
structure LeafGroup where
  key : GroupKey
  leaves : List Leaf

namespace Leaf

/-- What the leaves of one namespace have in common. -/
def key (leaf : Leaf) : GroupKey := ⟨leaf.scope.namespaceName, leaf.scope.group, leaf.type.form.shape == .dense⟩

def order (leaf : Leaf) : Int := leaf.attributes.order.getD 0

/-- The groups of some leaves: the keys as they are first met, each with its leaves in the order that they declare, those
of one order as they were met. -/
def groups (leaves : List Leaf) : List LeafGroup :=
  (leaves.map key).eraseDups.map fun key =>
    ⟨key, (leaves.filter fun leaf => leaf.key = key).mergeSort fun a b => a.order ≤ b.order⟩

end Leaf

namespace LeafGroup

def space (g : LeafGroup) : Namespace := .make g.key.namespaceName g.key.group

def described (g : LeafGroup) : Group := ⟨g.key, g.leaves.map Leaf.descriptor⟩

end LeafGroup

/-- The order of features in a group. -/
private def byOrder (a b : Descriptor) : Bool := a.order ≤ b.order

/-- The groups of the features of a walk are the groups of its leaves. -/
theorem groupFeatures_eq_groups {type : String} {leaves : List Leaf} {gs : List Group}
    (ok : groupFeatures type (leaves.map Leaf.descriptor) = .ok gs) :
    gs = (Leaf.groups leaves).map LeafGroup.described := by
  obtain ⟨-, rfl⟩ := groupFeatures_eq_ok_iff.1 ok
  rw [Group.collect_eq, Leaf.groups, List.map_map, List.map_map, List.map_map]
  refine List.map_congr_left fun key _ => ?_
  have chosen : ((leaves.map Leaf.descriptor).filter fun d => d.key = key) =
      (leaves.filter fun leaf => leaf.key = key).map Leaf.descriptor := List.filter_map
  have sorted (ls : List Leaf) : (ls.map Leaf.descriptor).mergeSort byOrder =
      (ls.mergeSort fun a b => byOrder a.descriptor b.descriptor).map Leaf.descriptor := by
    rw [List.map_mergeSort (s := byOrder) fun _ _ _ _ => rfl]
  change (⟨key, ((leaves.map Leaf.descriptor).filter fun d => d.key = key).mergeSort byOrder⟩ : Group) = ⟨key, _⟩
  rw [chosen, sorted]
  rfl

end FeatureLines
