import Mathlib.Data.List.Flatten
import Mathlib.Data.List.Perm.Basic
import FeatureLines.Proofs.Schema.Grouping

/-!
# The layout of leaves

Leaves are written namespace by namespace (`Leaf.layout`). The layout has every leaf once (`Leaf.layout_perm`).
-/

namespace FeatureLines

namespace Leaf

/-- What the leaves of each namespace have in common, in the order in which the namespaces are first met. -/
def keys (leaves : List Leaf) : List GroupKey := (leaves.map key).eraseDups

/-- The leaves in the order in which they are written: namespace by namespace, and by their order in a namespace. -/
def layout (leaves : List Leaf) : List Leaf := (groups leaves).flatMap LeafGroup.leaves

lemma mem_keys {leaves : List Leaf} {key : GroupKey} : key ∈ keys leaves ↔ ∃ leaf ∈ leaves, leaf.key = key := by
  rw [keys, List.mem_eraseDups, List.mem_map]

lemma groups_eq_nil_iff {leaves : List Leaf} : groups leaves = [] ↔ leaves = [] := by
  cases leaves with
  | nil => exact ⟨fun _ => rfl, fun _ => rfl⟩
  | cons leaf leaves => simp [groups, List.eraseDups_cons]

/-- The groups of the descriptors of some leaves are the namespaces of the leaves. -/
lemma collect_descriptors (leaves : List Leaf) :
    Group.collect (leaves.map descriptor) = (keys leaves).map fun key =>
      ⟨key, (leaves.filter fun leaf => leaf.key = key).map descriptor⟩ := by
  rw [Group.collect_eq, keys, List.map_map]
  refine List.map_congr_left fun key _ => ?_
  have chosen : ((leaves.map descriptor).filter fun d => d.key = key) =
      (leaves.filter fun leaf => leaf.key = key).map descriptor := List.filter_map
  rw [chosen]

end Leaf

/-- Members that are sorted by a key are the same members. -/
lemma flatMap_filter_perm {α κ : Type} [DecidableEq κ] (f : α → κ) {keys : List κ} (distinct : keys.Nodup) {l : List α}
    (covers : ∀ a ∈ l, f a ∈ keys) : (keys.flatMap fun key => l.filter fun a => f a = key).Perm l := by
  induction keys generalizing l with
  | nil =>
    rw [List.eq_nil_iff_forall_not_mem.2 fun a mem => List.not_mem_nil (covers a mem)]
    exact .refl []
  | cons key keys ih =>
    obtain ⟨fresh, distinct⟩ := List.nodup_cons.1 distinct
    have others : (keys.flatMap fun other => l.filter fun a => f a = other) =
        keys.flatMap fun other => (l.filter fun a => !decide (f a = key)).filter fun a => f a = other := by
      refine List.flatMap_congr fun other mem => ?_
      rw [List.filter_filter]
      refine List.filter_congr fun a _ => ?_
      by_cases same : f a = other
      · have apart : f a ≠ key := fun met => fresh (met ▸ same ▸ mem)
        simp [same, same ▸ apart]
      · simp [same]
    have rest := ih distinct (l := l.filter fun a => !decide (f a = key)) fun a mem => by
      obtain ⟨mem, apart⟩ := List.mem_filter.1 mem
      rcases List.mem_cons.1 (covers a mem) with met | later
      · simp [met] at apart
      · exact later
    rw [List.flatMap_cons, others]
    exact (rest.append_left _).trans (List.filter_append_perm _ l)

/-- The layout has every leaf once. -/
theorem Leaf.layout_perm (leaves : List Leaf) : (layout leaves).Perm leaves := by
  have sorted : (layout leaves).Perm ((keys leaves).flatMap fun key => leaves.filter fun leaf => leaf.key = key) := by
    rw [layout, groups, List.flatMap_map]
    exact List.Perm.flatMap_left _ fun key _ => List.mergeSort_perm _ _
  exact sorted.trans (flatMap_filter_perm key (nodup_eraseDups _) fun leaf mem => mem_keys.2 ⟨leaf, mem, rfl⟩)

end FeatureLines
