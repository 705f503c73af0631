import FeatureLines.Proofs.First
import FeatureLines.Proofs.Schema.Layout

/-!
# Grouping as a partition

Features are of one namespace when they agree in its name and in the group (`Descriptor.home`). Something is wrong with a
dense feature when another feature of its namespace is not dense, or else is dense too (`Descriptor.Clash`). Grouping fails
for the first feature that something is wrong with (`groupFeatures_reports_clashes`). Otherwise it sorts the features by
their keys, and those of one key by their order, stably (`Partitions`).

Main statement: `groupFeatures_partitions`.
-/

/-! ## Lists -/

namespace List

variable {α : Type}

/-- Members that stay when duplicates go stand in the order in which they are first met. -/
lemma pairwise_idxOf_eraseDups [DecidableEq α] (l : List α) : l.eraseDups.Pairwise fun a b => l.idxOf a < l.idxOf b := by
  induction l using reverseRecOn with
  | nil => exact .nil
  | append_singleton l a ih =>
    have before {b : α} (mem : b ∈ l.eraseDups) : (l ++ [a]).idxOf b = l.idxOf b :=
      idxOf_append_of_mem (mem_eraseDups.1 mem)
    rw [FeatureLines.eraseDups_concat, pairwise_append]
    refine ⟨ih.imp_of_mem fun memB memC less => by rwa [before memB, before memC], ?_, fun b memB c memC => ?_⟩
    · split
      · exact .nil
      · exact pairwise_singleton _ _
    · split at memC
      · cases memC
      · rename_i fresh
        rw [mem_singleton.1 memC, before memB, idxOf_append_of_notMem fresh]
        exact Nat.lt_add_right _ (idxOf_lt_length_iff.2 (mem_eraseDups.1 memB))

/-- What is found first in a list is found first when duplicates are gone. -/
lemma findSome?_eraseDups {β : Type} [DecidableEq α] (f : α → Option β) (l : List α) :
    l.eraseDups.findSome? f = l.findSome? f := by
  induction l using reverseRecOn with
  | nil => rfl
  | append_singleton l a ih =>
    rw [FeatureLines.eraseDups_concat, findSome?_append, findSome?_append, ih]
    split
    · rename_i met
      cases found : l.findSome? f with
      | some b => rfl
      | none => simp [findSome?_eq_none_iff.1 found a met]
    · rfl

/-- Sorting by a number leaves the members of one number in their order. -/
lemma filter_mergeSort (rank : α → Int) (n : Int) (l : List α) :
    (l.mergeSort fun a b => rank a ≤ rank b).filter (fun a => rank a = n) = l.filter fun a => rank a = n := by
  let le : α → α → Bool := fun a b => rank a ≤ rank b
  have trans : ∀ a b c, le a b = true → le b c = true → le a c = true := by
    simp only [le, decide_eq_true_iff]
    exact fun _ _ _ => Int.le_trans
  have total : ∀ a b, (le a b || le b a) = true := by
    simp only [le, Bool.or_eq_true, decide_eq_true_iff]
    exact fun a b => Int.le_total (rank a) (rank b)
  have level : (l.filter fun a => rank a = n).Pairwise fun a b => le a b = true := by
    refine pairwise_iff_forall_sublist.2 fun {a b} sub => decide_eq_true ?_
    have memA := sub.subset (mem_cons_self (a := a))
    have memB := sub.subset (mem_cons_of_mem a (mem_singleton_self b))
    exact Int.le_of_eq ((of_decide_eq_true (mem_filter.1 memA).2).trans (of_decide_eq_true (mem_filter.1 memB).2).symm)
  -- members of one number are sorted as they stand, so they are found in their order in the sorted list
  have sub := (sublist_mergeSort trans total level filter_sublist).filter fun a => rank a = n
  simp only [filter_filter, Bool.and_self] at sub
  exact (sub.eq_of_length ((mergeSort_perm l le).filter _).length_eq.symm).symm

end List

namespace FeatureLines

namespace Descriptor

/-- The namespace of a feature: its name, and the group. -/
def home (d : Descriptor) : Option String × Option Char := (d.namespaceName, d.group)

lemma key_eq_iff {a b : Descriptor} : a.key = b.key ↔ a.home = b.home ∧ a.isDense = b.isDense := by
  simp [key, home, and_assoc]

/-- What is wrong with a dense feature among others: its namespace is used sparsely, or else by several dense features. -/
inductive Clash (type : String) (ds : List Descriptor) (d : Descriptor) : SchemaError → Prop
  | mixed {other : Descriptor} (dense : d.isDense = true) (mem : other ∈ ds) (shared : other.home = d.home)
      (sparse : other.isDense = false) :
      Clash type ds d (.mixedNamespace type (Namespace.make d.namespaceName d.group).fullName)
  | several (dense : d.isDense = true) (unmixed : ∀ other ∈ ds, other.home = d.home → other.isDense = true)
      (many : 1 < (ds.filter fun other => other.home = d.home).length) :
      Clash type ds d
        (.multipleDenseFeatures type (Namespace.make d.namespaceName d.group).fullName
          ((ds.filter fun other => other.home = d.home).map path))

end Descriptor

/-- A namespace has a dense feature and one that is not, or two dense ones. -/
def Clashing (ds : List Descriptor) : Prop :=
  (∃ a ∈ ds, ∃ b ∈ ds, a.home = b.home ∧ a.isDense = true ∧ b.isDense = false) ∨
    ∃ home, 1 < ds.countP fun d => d.home = home ∧ d.isDense = true

/-- Features are sorted by their keys, as these are first met, and those of one key by their order. None is lost and none is
doubled, and features of one key and one order stay as they were met. -/
structure Partitions (ds : List Descriptor) (gs : List Group) : Prop where
  distinct : (gs.map Group.key).Nodup
  firstMet : (gs.map Group.key).Pairwise fun a b => (ds.map Descriptor.key).idxOf a < (ds.map Descriptor.key).idxOf b
  keys : ∀ key, key ∈ gs.map Group.key ↔ key ∈ ds.map Descriptor.key
  members : ∀ g ∈ gs, g.features.Perm (ds.filter fun d => d.key = g.key)
  sorted : ∀ g ∈ gs, g.features.Pairwise fun a b => a.order ≤ b.order
  stable : ∀ g ∈ gs, ∀ order, g.features.filter (fun d => d.order = order) =
    (ds.filter fun d => d.key = g.key).filter fun d => d.order = order
  whole : (gs.flatMap Group.features).Perm ds
  alone : ∀ g ∈ gs, g.key.dense = true → ∃ d, g.features = [d]

/-! ## Clashes -/

namespace Descriptor

/-- What is wrong with the group of a feature is what is wrong with the feature. -/
lemma problem?_eq_some (type : String) (ds : List Descriptor) (d : Descriptor) (failure : SchemaError) :
    Group.problem? type (Group.collect ds) ⟨d.key, ds.filter fun other => other.key = d.key⟩ = some failure ↔
      Clash type ds d failure := by
  have sparse : ((Group.collect ds).any fun other => other.key = { d.key with dense := false }) = true ↔
      ∃ other ∈ ds, other.home = d.home ∧ other.isDense = false := by
    rw [Group.collect_eq, List.any_map, List.any_eq_true]
    simp [home, key, and_assoc]
  have shared (unmixed : ∀ other ∈ ds, other.home = d.home → other.isDense = true) (dense : d.isDense = true) :
      (ds.filter fun other => other.key = d.key) = ds.filter fun other => other.home = d.home := by
    refine List.filter_congr fun other mem => decide_eq_decide.2 ?_
    rw [key_eq_iff, dense]
    exact and_iff_left_of_imp (unmixed other mem)
  unfold Group.problem?
  constructor
  · intro found
    split at found
    · rename_i dense
      split at found
      · rename_i mixed
        obtain ⟨other, mem, same, thin⟩ := sparse.1 mixed
        cases found
        exact .mixed dense mem same thin
      · rename_i clear
        have unmixed : ∀ other ∈ ds, other.home = d.home → other.isDense = true := fun other mem same =>
          Bool.not_eq_false _ ▸ fun thin => clear (sparse.2 ⟨other, mem, same, thin⟩)
        simp only [shared unmixed dense] at found
        split at found
        · rename_i many
          cases found
          exact .several dense unmixed many
        · cases found
    · cases found
  · intro clash
    cases clash with
    | mixed dense mem same thin =>
      have dense' : d.key.dense = true := dense
      rw [if_pos dense', if_pos (sparse.2 ⟨_, mem, same, thin⟩)]
      rfl
    | several dense unmixed many =>
      have clear : ¬((Group.collect ds).any fun other => other.key = { d.key with dense := false }) = true := fun mixed => by
        obtain ⟨other, mem, same, thin⟩ := sparse.1 mixed
        rw [unmixed other mem same] at thin
        cases thin
      have dense' : d.key.dense = true := dense
      simp only [shared unmixed dense]
      rw [if_pos dense', if_neg clear, if_pos many]
      rfl

end Descriptor

/-- Grouping fails for the first feature that something is wrong with, and for nothing else. -/
theorem groupFeatures_reports_clashes (type : String) (ds : List Descriptor) :
    (groupFeatures type ds).Reports (ds.map (Descriptor.Clash type ds)) := by
  intro failure
  rw [First.map_iff (Descriptor.problem?_eq_some type ds)]
  have search : (Group.collect ds).findSome? (Group.problem? type (Group.collect ds)) =
      ds.findSome? fun d => Group.problem? type (Group.collect ds) ⟨d.key, ds.filter fun other => other.key = d.key⟩ := by
    conv_lhs => rw [Group.collect_eq ds, List.findSome?_map, List.findSome?_eraseDups, List.findSome?_map]
    rw [← Group.collect_eq]
    rfl
  rw [groupFeatures_eq_error_iff, search]

/-- Something is wrong with a feature exactly if a namespace is not the own one of a dense feature. -/
lemma exists_clash_iff (type : String) (ds : List Descriptor) :
    (∃ d ∈ ds, ∃ failure, d.Clash type ds failure) ↔ Clashing ds := by
  have count (d : Descriptor) (unmixed : ∀ other ∈ ds, other.home = d.home → other.isDense = true) :
      (ds.filter fun other => other.home = d.home).length =
        ds.countP fun other => other.home = d.home ∧ other.isDense = true := by
    rw [← List.countP_eq_length_filter]
    refine List.countP_congr fun other mem => ?_
    simp only [decide_eq_true_iff]
    exact (and_iff_left_of_imp (unmixed other mem)).symm
  constructor
  · rintro ⟨d, mem, failure, clash⟩
    cases clash with
    | mixed dense other shared sparse => exact .inl ⟨d, mem, _, other, shared.symm, dense, sparse⟩
    | several dense unmixed many => exact .inr ⟨d.home, count d unmixed ▸ many⟩
  · rintro (⟨a, memA, b, memB, shared, dense, sparse⟩ | ⟨home, many⟩)
    · exact ⟨a, memA, _, .mixed dense memB shared.symm sparse⟩
    · obtain ⟨d, mem, here⟩ := List.countP_pos_iff.1 (Nat.zero_lt_of_lt many)
      obtain ⟨rfl, dense⟩ := of_decide_eq_true here
      by_cases unmixed : ∀ other ∈ ds, other.home = d.home → other.isDense = true
      · exact ⟨d, mem, _, .several dense unmixed (count d unmixed ▸ many)⟩
      · push Not at unmixed
        obtain ⟨other, memOther, shared, sparse⟩ := unmixed
        exact ⟨d, mem, _, .mixed dense memOther shared (Bool.eq_false_iff.2 sparse)⟩

/-- Whether features clash does not depend on the order in which they are met. -/
lemma Clashing.perm {ds ds' : List Descriptor} (perm : ds.Perm ds') : Clashing ds ↔ Clashing ds' := by
  unfold Clashing
  simp only [perm.mem_iff, perm.countP_eq]

lemma groupFeatures_fails_iff (type : String) (ds : List Descriptor) :
    (∃ failure, groupFeatures type ds = .error failure) ↔ Clashing ds := by
  simp only [groupFeatures_reports_clashes type ds _]
  rw [First.exists_iff, ← exists_clash_iff type ds]
  simp

/-! ## Groups -/

lemma groupFeatures_eq_ok {type : String} {ds : List Descriptor} {gs : List Group} (ok : groupFeatures type ds = .ok gs) :
    gs = (ds.map Descriptor.key).eraseDups.map fun key =>
      ⟨key, (ds.filter fun d => d.key = key).mergeSort fun a b => a.order ≤ b.order⟩ := by
  obtain ⟨-, rfl⟩ := groupFeatures_eq_ok_iff.1 ok
  rw [Group.collect_eq, List.map_map]
  rfl

/-- Grouping that succeeds is a stable partition. -/
lemma groupFeatures_ok_partitions {type : String} {ds : List Descriptor} {gs : List Group}
    (ok : groupFeatures type ds = .ok gs) : Partitions ds gs := by
  have proper := groupFeatures_proper ok
  have eq := groupFeatures_eq_ok ok
  have keys : gs.map Group.key = (ds.map Descriptor.key).eraseDups := by
    rw [eq, List.map_map]
    exact List.map_id _
  have group {P : Group → Prop} (each : ∀ key, P ⟨key, (ds.filter fun d => d.key = key).mergeSort
      fun a b => a.order ≤ b.order⟩) : ∀ g ∈ gs, P g := by
    rw [eq, List.forall_mem_map]
    exact fun key _ => each key
  refine ⟨proper.keys, ?_, fun key => ?_, group fun key => List.mergeSort_perm _ _, group fun key => ?_,
    group fun key order => List.filter_mergeSort Descriptor.order order _, ?_, fun g mem dense => ?_⟩
  · rw [keys]
    exact List.pairwise_idxOf_eraseDups _
  · rw [keys, List.mem_eraseDups]
  · let byOrder : Descriptor → Descriptor → Bool := fun a b => a.order ≤ b.order
    have sorted : ((ds.filter fun d => d.key = key).mergeSort byOrder).Pairwise fun a b => byOrder a b = true :=
      List.pairwise_mergeSort (by simpa [byOrder] using fun _ _ _ => Int.le_trans)
        (by simpa [byOrder] using fun a b => Int.le_total _ _) _
    exact sorted.imp of_decide_eq_true
  · rw [eq, List.flatMap_map]
    refine (List.Perm.flatMap_left _ fun key _ => List.mergeSort_perm _ _).trans ?_
    exact flatMap_filter_perm Descriptor.key (nodup_eraseDups _) fun d mem =>
      List.mem_eraseDups.2 (List.mem_map_of_mem mem)
  · exact List.length_eq_one_iff.1 (proper.alone g mem dense)

/-- Grouping fails exactly if a namespace has a dense feature and one that is not dense, or two dense ones, in whatever order
the features are met. It fails for the first feature that something is wrong with: a dense one whose namespace is used
sparsely, or else by several dense features, which are listed as they were met. Otherwise the groups are a stable partition
of the features. -/
theorem groupFeatures_partitions (type : String) (ds : List Descriptor) :
    ((∃ failure, groupFeatures type ds = .error failure) ↔ Clashing ds) ∧
      (∀ ds', ds.Perm ds' →
        ((∃ failure, groupFeatures type ds' = .error failure) ↔ ∃ failure, groupFeatures type ds = .error failure)) ∧
      (∀ failure, groupFeatures type ds = .error failure ↔ First (ds.map (Descriptor.Clash type ds)) failure) ∧
      ∀ gs, groupFeatures type ds = .ok gs → Partitions ds gs := by
  refine ⟨groupFeatures_fails_iff type ds, fun ds' perm => ?_, groupFeatures_reports_clashes type ds,
    fun gs => groupFeatures_ok_partitions⟩
  rw [groupFeatures_fails_iff, groupFeatures_fails_iff]
  exact (Clashing.perm perm).symm

namespace Cellar

/-- A feature of a wine: its namespace, its order, and how its values are built. -/
def feature (path home : String) (order : Int) (form : Form) : Descriptor :=
  .ofFeature ⟨0, path, false⟩ { order := some order } ⟨some home, none⟩ ⟨path, form⟩ none

def price : Descriptor := feature "price" "facts" 2 (.scalar .numeric)
def taste : Descriptor := feature "taste" "senses" 0 (.vector .numeric)
def age : Descriptor := feature "age" "facts" 1 (.scalar .numeric)
def smell : Descriptor := feature "smell" "senses" 0 (.vector .numeric)

lemma groupFeatures_eq : groupFeatures "Wine" [price, taste, age] =
    .ok [⟨⟨some "facts", none, false⟩, [age, price]⟩, ⟨⟨some "senses", none, true⟩, [taste]⟩] := by
  simp [groupFeatures, Group.collect, Group.add, Descriptor.key, Group.problem?, Group.sorted, List.mergeSort, feature, price,
    taste, age, Descriptor.ofFeature, Descriptor.isDense, Descriptor.shape, Form.shape]

lemma groupFeatures_eq_error : groupFeatures "Wine" [price, taste, age, smell] =
    .error (.multipleDenseFeatures "Wine" (Namespace.make (some "senses") none).fullName ["taste", "smell"]) := by
  simp [groupFeatures, Group.collect, Group.add, Descriptor.key, Group.problem?, feature, price, taste, age, smell,
    Descriptor.ofFeature, Descriptor.isDense, Descriptor.shape, Form.shape, Group.runtime]

end Cellar

open Cellar in
/-- Two of three features of a wine share a namespace, and are exchanged. With a second dense feature, grouping fails in
whatever order the features are met. -/
theorem groupFeatures_partitions_wine :
    Partitions [price, taste, age]
        [⟨⟨some "facts", none, false⟩, [age, price]⟩, ⟨⟨some "senses", none, true⟩, [taste]⟩] ∧
      Clashing [price, taste, age, smell] ∧
      First ([price, taste, age, smell].map (Descriptor.Clash "Wine" [price, taste, age, smell]))
        (.multipleDenseFeatures "Wine" (Namespace.make (some "senses") none).fullName ["taste", "smell"]) ∧
      ∃ failure, groupFeatures "Wine" [smell, age, taste, price] = .error failure := by
  obtain ⟨-, -, -, partitions⟩ := groupFeatures_partitions "Wine" [price, taste, age]
  obtain ⟨fails, unordered, reports, -⟩ := groupFeatures_partitions "Wine" [price, taste, age, smell]
  have failed : ∃ failure, groupFeatures "Wine" [price, taste, age, smell] = .error failure := ⟨_, groupFeatures_eq_error⟩
  exact ⟨partitions _ groupFeatures_eq, fails.1 failed, (reports _).1 groupFeatures_eq_error,
    (unordered _ (List.reverse_perm _).symm).2 failed⟩

end FeatureLines
