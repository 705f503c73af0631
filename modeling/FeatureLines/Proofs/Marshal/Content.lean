import Mathlib.Data.List.Nodup
import FeatureLines.Proofs.Results
import FeatureLines.Proofs.Schema.Typing

/-!
# The content of a registry

A registry of stateless marshallers is known by its content: the names of its types with the names of their marshallers,
in the order of the types. Names are what types and stateless marshallers are told apart by (`Conventions.Faithful`).
Registries of one content then give the same marshallers (`Registry.get?_of_contentKey?`), and registries with the same
entries have one content, in whichever order these were registered (`Registry.contentKey?_of_sameStateless`).
-/

namespace FeatureLines

/-- Which stateless marshallers there are, with the types they are registered for. -/
abbrev Conventions := ValueType → Handle → Prop

/-- Names tell types apart, and the stateless marshallers of one type. -/
structure Conventions.Faithful (known : Conventions) : Prop where
  type : ∀ {type type' handle handle'}, known type handle → known type' handle' → type.name = type'.name → type = type'
  handle : ∀ {type handle handle'}, known type handle → known type handle' → handle.name = handle'.name → handle = handle'

namespace Registry

/-- A registry with one entry for each type, whose stateless marshallers are known. -/
structure Within (known : Conventions) (r : Registry) : Prop where
  nodup : (r.entries.map Prod.fst).Nodup
  known : ∀ type entry, (type, entry) ∈ r.entries → entry.isStateless → known type entry.handle

variable {known : Conventions} {r r' : Registry} {type : ValueType} {entry : Entry}

lemma Within.empty : (empty : Registry).Within known := ⟨List.nodup_nil, fun _ _ mem => nomatch mem⟩

/-- Registering keeps one entry for each type. -/
lemma Within.register (within : r.Within known) (own : entry.isStateless → known type entry.handle) :
    (r.register type entry).Within known := by
  constructor
  · have others : ((r.entries.filter (·.1 ≠ type)).map Prod.fst).Nodup :=
      within.nodup.sublist (List.filter_sublist.map Prod.fst)
    have fresh : type ∉ (r.entries.filter (·.1 ≠ type)).map Prod.fst := by
      intro mem
      obtain ⟨⟨other, entry⟩, kept, same⟩ := List.mem_map.1 mem
      exact of_decide_eq_true (List.mem_filter.1 kept).2 same
    unfold Registry.register
    rw [List.map_append]
    exact others.append (List.nodup_singleton type) (List.disjoint_singleton.2 fresh)
  · intro type' entry' mem stateless
    rcases List.mem_append.1 mem with kept | new
    · exact within.known type' entry' (List.mem_filter.1 kept).1 stateless
    · cases List.mem_singleton.1 new
      exact own stateless

lemma mem_of_entry? (found : r.entry? type = some entry) : (type, entry) ∈ r.entries := by
  unfold entry? at found
  obtain ⟨before, after, split, -⟩ := List.lookup_eq_some_iff.1 found
  rw [split]
  exact List.mem_append_right _ (List.mem_cons_self ..)

/-- An entry is what its type is looked up to. -/
lemma Within.entry?_eq_some (within : r.Within known) (mem : (type, entry) ∈ r.entries) : r.entry? type = some entry := by
  obtain ⟨before, after, split⟩ := List.append_of_mem mem
  refine List.lookup_eq_some_iff.2 ⟨before, after, split, fun binding earlier => bne_iff_ne.2 fun same => ?_⟩
  have apart := within.nodup
  rw [split, List.map_append, List.map_cons] at apart
  exact List.disjoint_of_nodup_append apart (List.mem_map_of_mem earlier) (same ▸ List.mem_cons_self ..)

/-! ## Names -/

/-- The names of the types with those of their marshallers. -/
def names (r : Registry) : List (String × String) := r.entries.map fun binding => (binding.1.name, binding.2.handle.name)

/-- Names are given to all of some entries if each is that of a stateless marshaller. -/
lemma mapM_name_eq_some {entries : List (ValueType × Entry)} {found : List (String × String)} :
    (entries.mapM fun binding => match binding.2.identity with
      | .stateless name => some (binding.1.name, name)
      | .stateful _ => none) = some found ↔
    (∀ binding ∈ entries, binding.2.isStateless) ∧
      (entries.map fun binding => (binding.1.name, binding.2.handle.name)) = found := by
  induction entries generalizing found with
  | nil => simp
  | cons binding entries ih =>
    rw [List.mapM_cons, List.forall_mem_cons, List.map_cons, Entry.identity]
    cases binding.2.isStateless with
    | false => simp
    | true =>
      simp only [↓reduceIte, Option.bind_eq_bind, Option.bind_some, Option.pure_def, Option.bind_eq_some_iff, true_and, ih,
        Option.some.injEq]
      constructor
      · rintro ⟨rest, ⟨stateless, rfl⟩, rfl⟩
        exact ⟨stateless, rfl⟩
      · rintro ⟨stateless, rfl⟩
        exact ⟨_, ⟨stateless, rfl⟩, rfl⟩

/-- The content of a registry is its names in order, and only stateless marshallers have a content. -/
lemma contentKey?_eq_some {content : List (String × String)} : r.contentKey? = some content ↔
    (∀ binding ∈ r.entries, binding.2.isStateless) ∧ r.names.mergeSort (fun a b => a.1 ≤ b.1) = content := by
  unfold contentKey?
  rw [Option.map_eq_some_iff]
  constructor
  · rintro ⟨found, all, sorted⟩
    obtain ⟨stateless, rfl⟩ := mapM_name_eq_some.1 all
    exact ⟨stateless, sorted⟩
  · rintro ⟨stateless, sorted⟩
    exact ⟨_, mapM_name_eq_some.2 ⟨stateless, rfl⟩, sorted⟩

/-- What a registry of a content gives is what any other of that content gives. -/
lemma get?_eq_some_of_contentKey? (faithful : known.Faithful) (within : r.Within known) (within' : r'.Within known)
    {content : List (String × String)} (key : r.contentKey? = some content) (key' : r'.contentKey? = some content)
    {handle : Handle} (found : r.get? type = some handle) : r'.get? type = some handle := by
  obtain ⟨stateless, sorted⟩ := contentKey?_eq_some.1 key
  obtain ⟨stateless', sorted'⟩ := contentKey?_eq_some.1 key'
  have same : r.names.Perm r'.names := by
    refine (List.mergeSort_perm r.names fun a b => a.1 ≤ b.1).symm.trans ?_
    rw [sorted, ← sorted']
    exact List.mergeSort_perm r'.names _
  obtain ⟨entry, held, rfl⟩ := Option.map_eq_some_iff.1 found
  have mem := mem_of_entry? held
  obtain ⟨⟨type', entry'⟩, mem', names⟩ := List.mem_map.1 (same.subset (List.mem_map_of_mem mem))
  obtain ⟨nameType, nameHandle⟩ := Prod.mk.inj names
  have own := within.known type entry mem (stateless _ mem)
  have other := within'.known type' entry' mem' (stateless' _ mem')
  obtain rfl : type' = type := faithful.type other own nameType
  rw [get?, within'.entry?_eq_some mem', Option.map_some, faithful.handle other own nameHandle]

/-- Registries of one content give the same marshallers. -/
theorem get?_of_contentKey? (faithful : known.Faithful) (within : r.Within known) (within' : r'.Within known)
    {content : List (String × String)} (key : r.contentKey? = some content) (key' : r'.contentKey? = some content)
    (type : ValueType) : r.get? type = r'.get? type :=
  Option.ext fun _ => ⟨get?_eq_some_of_contentKey? faithful within within' key key',
    get?_eq_some_of_contentKey? faithful within' within key' key⟩

/-! ## Entries -/

/-- Registries with the same entries, as far as these are interchangeable, and no marshaller with a state of its own. -/
structure SameStateless (r r' : Registry) : Prop where
  identity : ∀ type, (r.entry? type).map Entry.identity = (r'.entry? type).map Entry.identity
  stateless : ∀ type entry, r.entry? type = some entry → entry.isStateless

namespace SameStateless

lemma symm (same : r.SameStateless r') : r'.SameStateless r := by
  refine ⟨fun type => (same.identity type).symm, fun type entry found => ?_⟩
  have identity := same.identity type
  rw [found, Option.map_some] at identity
  obtain ⟨other, held, like⟩ := Option.map_eq_some_iff.1 identity
  have stateless := same.stateless type other held
  by_contra stateful
  rw [Entry.identity, Entry.identity, if_pos stateless, if_neg stateful] at like
  cases like

/-- An entry of the one is, by its names, an entry of the other. -/
lemma names_subset (same : r.SameStateless r') (within : r.Within known) : r.names ⊆ r'.names := by
  intro pair mem
  obtain ⟨⟨type, entry⟩, held, rfl⟩ := List.mem_map.1 mem
  have found := within.entry?_eq_some held
  have identity := same.identity type
  rw [found, Option.map_some] at identity
  obtain ⟨other, held', like⟩ := Option.map_eq_some_iff.1 identity.symm
  rw [Entry.identity, Entry.identity, if_pos (same.symm.stateless type other held'), if_pos (same.stateless type entry found)]
    at like
  have names : other.handle.name = entry.handle.name := Identity.stateless.inj like
  exact List.mem_map.2 ⟨(type, other), mem_of_entry? held', by rw [names]⟩

end SameStateless

/-- Types that are told apart by their names are named once. -/
lemma Within.nodup_names (faithful : known.Faithful) (within : r.Within known)
    (stateless : ∀ binding ∈ r.entries, binding.2.isStateless) : (r.names.map Prod.fst).Nodup := by
  unfold names
  rw [List.map_map]
  refine List.Nodup.map_on (fun a memA b memB named => ?_) within.nodup.of_map
  have same : a.1 = b.1 := faithful.type (within.known _ _ memA (stateless a memA))
    (within.known _ _ memB (stateless b memB)) named
  exact List.inj_on_of_nodup_map within.nodup memA memB same

/-- Names in order are the only ones in order that are a permutation of them, if each type is named once. -/
lemma mergeSort_eq_of_perm {pairs pairs' : List (String × String)} (perm : pairs.Perm pairs')
    (nodup : (pairs.map Prod.fst).Nodup) :
    pairs.mergeSort (fun a b => a.1 ≤ b.1) = pairs'.mergeSort (fun a b => a.1 ≤ b.1) := by
  have sorted (pairs : List (String × String)) :
      (pairs.mergeSort fun a b => a.1 ≤ b.1).Pairwise fun a b => decide (a.1 ≤ b.1) = true := by
    refine List.pairwise_mergeSort (fun a b c ab bc => ?_) (fun a b => ?_) pairs
    · exact decide_eq_true (String.le_trans (of_decide_eq_true ab) (of_decide_eq_true bc))
    · exact Bool.or_eq_true_iff.2 ((String.le_total a.1 b.1).imp decide_eq_true decide_eq_true)
  refine List.Perm.eq_of_pairwise (fun a b memA memB ab ba => ?_) (sorted pairs) (sorted pairs') ?_
  · have named : a.1 = b.1 := String.le_antisymm (of_decide_eq_true ab) (of_decide_eq_true ba)
    refine List.inj_on_of_nodup_map nodup ((List.mergeSort_perm ..).subset memA) ?_ named
    exact perm.symm.subset ((List.mergeSort_perm ..).subset memB)
  · exact (List.mergeSort_perm ..).trans (perm.trans (List.mergeSort_perm ..).symm)

/-- Registries with the same stateless entries have one content, in whichever order these were registered. -/
theorem contentKey?_of_sameStateless (faithful : known.Faithful) (within : r.Within known) (within' : r'.Within known)
    (same : r.SameStateless r') : ∃ content, r.contentKey? = some content ∧ r'.contentKey? = some content := by
  have stateless {r r' : Registry} (within : r.Within known) (same : r.SameStateless r') :
      ∀ binding ∈ r.entries, binding.2.isStateless := fun binding mem =>
    same.stateless binding.1 binding.2 (within.entry?_eq_some mem)
  have nodup := within.nodup_names faithful (stateless within same)
  have nodup' := within'.nodup_names faithful (stateless within' same.symm)
  have perm : r.names.Perm r'.names := (List.perm_ext_iff_of_nodup nodup.of_map nodup'.of_map).2 fun pair =>
    ⟨fun mem => same.names_subset within mem, fun mem => same.symm.names_subset within' mem⟩
  refine ⟨_, contentKey?_eq_some.2 ⟨stateless within same, rfl⟩, contentKey?_eq_some.2 ⟨stateless within' same.symm, ?_⟩⟩
  exact (mergeSort_eq_of_perm perm nodup).symm

end Registry

end FeatureLines
