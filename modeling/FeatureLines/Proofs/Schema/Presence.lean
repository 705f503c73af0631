import FeatureLines.Proofs.Schema.Walk

/-!
# Members that are there

A leaf has a value when every member that leads to it is there (`Leaf.value?`), which is what the guards of its descriptor
come to (`Leaf.descriptor_value?`). `Record.without` takes a member away. No leaf of a walk lies on the way to another one
(`Catalogue.Walk.beside`), so a member on a way takes the values of the leaves below it with it and no other value
(`Catalogue.Walk.value?_without`).
-/

namespace FeatureLines

namespace Record

/-- The record with a member missing, which a chain of fields leads to. -/
def without (r : Record) : List Nat → Record
  | [] => r
  | [position] => r.set position none
  | position :: rest =>
    match r.field? position with
    | some (.record site fields) => r.set position (some (.record site (without fields rest)))
    | _ => r

/-- The way to a value goes on in the record at its first step. -/
lemma follow?_cons (r : Record) (position : Nat) {rest : List Nat} (ne : rest ≠ []) :
    r.follow? (position :: rest) =
      match r.field? position with
      | some (.record _ fields) => follow? fields rest
      | _ => none := by
  cases rest with
  | nil => exact absurd rfl ne
  | cons => rfl

/-- A value is taken out of the record at the first step of its way. -/
lemma without_cons (r : Record) (position : Nat) {rest : List Nat} (ne : rest ≠ []) :
    r.without (position :: rest) =
      match r.field? position with
      | some (.record site fields) => r.set position (some (.record site (without fields rest)))
      | _ => r := by
  cases rest with
  | nil => exact absurd rfl ne
  | cons => rfl

/-- A field that held a value holds what it is set to, and an emptied field is empty in any case. -/
lemma field?_set_self (r : Record) (position : Nat) {cell : Option Cell} (there : cell = none ∨ (r.field? position).isSome) :
    field? (r.set position cell) position = cell := by
  unfold field? at there ⊢
  rw [List.getElem?_set_self']
  cases found : r[position]? with
  | some old => rfl
  | none =>
    rw [found] at there
    rcases there with rfl | none
    · rfl
    · cases none

/-- Setting a field concerns no other one. -/
lemma field?_set_of_ne (r : Record) {position other : Nat} (ne : position ≠ other) (cell : Option Cell) :
    field? (r.set position cell) other = r.field? other := by
  unfold field?
  rw [List.getElem?_set_ne ne]

/-- Where a chain leads to a value, every shorter chain does. -/
lemma isSome_follow?_of_append {r : Record} {front back : List Nat} (ne : front ≠ []) {cell : Cell}
    (there : r.follow? (front ++ back) = some cell) : (r.follow? front).isSome := by
  induction front generalizing r with
  | nil => exact absurd rfl ne
  | cons position front ih =>
    rcases List.eq_nil_or_concat back with rfl | ⟨_, _, rfl⟩
    · rw [List.append_nil] at there
      rw [there]
      rfl
    · rw [List.cons_append, follow?_cons r position (by simp)] at there
      split at there
      · rename_i site fields found
        cases front with
        | nil =>
          rw [follow?, found]
          rfl
        | cons next front =>
          rw [follow?_cons r position (by simp), found]
          exact ih (by simp) there
      · cases there

/-- A missing member is missing with what it holds, and what does not lie on the way to it stays. -/
lemma follow?_without (r : Record) {way chain : List Nat} (ne : way ≠ []) (beside : chain <+: way → chain = way) :
    (r.without way).follow? chain = if way <+: chain then none else r.follow? chain := by
  induction way generalizing r chain with
  | nil => exact absurd rfl ne
  | cons position way ih =>
    cases chain with
    | nil => cases beside (List.nil_prefix)
    | cons other chain =>
      by_cases same : position = other
      · subst same
        simp only [List.cons_prefix_cons, true_and, List.cons.injEq] at beside ⊢
        cases way with
        | nil =>
          rw [if_pos List.nil_prefix, without]
          have gone := r.field?_set_self position (.inl (rfl : (none : Option Cell) = none))
          cases chain with
          | nil => exact gone
          | cons next chain => rw [follow?_cons _ _ (by simp), gone]
        | cons next way =>
          have deep : chain ≠ [] := by
            rintro rfl
            cases beside List.nil_prefix
          rw [without_cons r position (by simp), follow?_cons r position deep]
          cases found : r.field? position with
          | none => simp [follow?_cons r position deep, found]
          | some cell =>
            cases cell with
            | record site fields =>
              simp only
              rw [follow?_cons _ position deep, r.field?_set_self position (.inr (by rw [found]; rfl))]
              exact ih fields (by simp) beside
            | leaf site datum => simp [follow?_cons r position deep, found]
            | candidates site items => simp [follow?_cons r position deep, found]
      · -- the chain leaves the way at its first field, which stays as it is
        have apart : ¬position :: way <+: other :: chain := fun h => same (List.cons_prefix_cons.1 h).1
        rw [if_neg apart]
        have field : (r.without (position :: way)).field? other = r.field? other := by
          cases way with
          | nil => exact r.field?_set_of_ne same none
          | cons next way =>
            rw [without_cons r position (by simp)]
            split
            · exact r.field?_set_of_ne same _
            · rfl
        cases chain with
        | nil => exact field
        | cons next chain => rw [follow?_cons _ _ (by simp), field, follow?_cons _ _ (by simp)]

end Record

/-! ## Values of leaves -/

namespace Leaf

/-- The value of a leaf, when every member that leads to it is there. -/
def value? (leaf : Leaf) (root : Record) : Option Cell := root.follow? (steps leaf.chain)

/-- A guard stands at a member on the way to the leaf. -/
lemma steps_of_mem_guardsFrom {way chain : List Member} {g : Guard} (mem : g ∈ guardsFrom way chain) :
    ∃ front back, front ≠ [] ∧ chain = front ++ back ∧ g.steps = steps (way ++ front) := by
  induction chain generalizing way with
  | nil => cases mem
  | cons m chain ih =>
    rcases List.mem_append.1 mem with here | later
    · split at here
      · rw [List.mem_singleton.1 here]
        exact ⟨[m], chain, by simp, rfl, rfl⟩
      · cases here
    · obtain ⟨front, back, -, rfl, eq⟩ := ih later
      exact ⟨m :: front, back, by simp, rfl, by simpa using eq⟩

/-- The guards of a leaf hold where it has a value. -/
theorem descriptor_value? (leaf : Leaf) (root : Record) : leaf.descriptor.value? root = leaf.value? root := by
  unfold Descriptor.value? value?
  split
  · rfl
  · rename_i missing
    cases found : root.follow? (steps leaf.chain) with
    | none => rfl
    | some cell =>
      refine absurd (List.all_eq_true.2 fun g mem => ?_) missing
      obtain ⟨front, back, ne, eq, way⟩ := steps_of_mem_guardsFrom mem
      rw [eq, steps, List.map_append] at found
      rw [Guard.holds, way, List.nil_append]
      exact Record.isSome_follow?_of_append (by simpa [steps] using ne) found

end Leaf

/-! ## Leaves beside each other -/

namespace Catalogue

variable {c : Catalogue}

/-- The leaves of some fields start with them. -/
lemma Walk.exists_cons {scope : Scope} {position : Nat} {fields : List Field} {leaves : List Leaf}
    (walk : c.Walk scope position fields leaves) {leaf : Leaf} (mem : leaf ∈ leaves) :
    ∃ m chain, leaf.chain = m :: chain ∧ position ≤ m.position := by
  induction walk generalizing leaf with
  | nil => cases mem
  | apart role rest ih =>
    obtain ⟨m, chain, eq, le⟩ := ih mem
    exact ⟨m, chain, eq, Nat.le_of_succ_le le⟩
  | feature value rest _ ih =>
    rcases List.mem_append.1 mem with here | later
    · split at here
      · rw [List.mem_singleton.1 here]
        exact ⟨_, _, rfl, Nat.le_refl _⟩
      · obtain ⟨inner, -, rfl⟩ := List.mem_map.1 here
        exact ⟨_, _, rfl, Nat.le_refl _⟩
    · obtain ⟨m, chain, eq, le⟩ := ih later
      exact ⟨m, chain, eq, Nat.le_of_succ_le le⟩
  | nested value rest _ ih =>
    rcases List.mem_append.1 mem with here | later
    · obtain ⟨inner, -, rfl⟩ := List.mem_map.1 here
      exact ⟨_, _, rfl, Nat.le_refl _⟩
    · obtain ⟨m, chain, eq, le⟩ := ih later
      exact ⟨m, chain, eq, Nat.le_of_succ_le le⟩

/-- No leaf of a list lies on the way to another one. -/
def Beside (leaves : List Leaf) : Prop :=
  ∀ a ∈ leaves, ∀ b ∈ leaves, Leaf.steps a.chain <+: Leaf.steps b.chain → Leaf.steps a.chain = Leaf.steps b.chain

/-- Leaves that start with one field are beside those that start with later ones. -/
lemma Beside.append (position : Nat) {here later : List Leaf} (first : Beside here) (second : Beside later)
    (starts : ∀ leaf ∈ here, ∃ m chain, leaf.chain = m :: chain ∧ m.position = position)
    (follows : ∀ leaf ∈ later, ∃ m chain, leaf.chain = m :: chain ∧ position + 1 ≤ m.position) :
    Beside (here ++ later) := by
  have apart : ∀ a ∈ here, ∀ b ∈ later,
      ¬Leaf.steps a.chain <+: Leaf.steps b.chain ∧ ¬Leaf.steps b.chain <+: Leaf.steps a.chain := fun a memA b memB => by
    obtain ⟨m, chain, eq, at_⟩ := starts a memA
    obtain ⟨m', chain', eq', le⟩ := follows b memB
    rw [eq, eq']
    constructor
    · intro way
      have same := (List.cons_prefix_cons.1 way).1
      omega
    · intro way
      have same := (List.cons_prefix_cons.1 way).1
      omega
  intro a memA b memB way
  rcases List.mem_append.1 memA with hereA | laterA <;> rcases List.mem_append.1 memB with hereB | laterB
  · exact first a hereA b hereB way
  · exact absurd way (apart a hereA b laterB).1
  · exact absurd way (apart b hereB a laterA).2
  · exact second a laterA b laterB way

/-- Leaves that stand beside each other do so also in a nested record. -/
lemma Beside.below (m : Member) {leaves : List Leaf} (beside : Beside leaves) : Beside (leaves.map (.below m)) := by
  intro a memA b memB way
  obtain ⟨a, innerA, rfl⟩ := List.mem_map.1 memA
  obtain ⟨b, innerB, rfl⟩ := List.mem_map.1 memB
  exact congrArg (m.position :: ·) (beside a innerA b innerB (List.cons_prefix_cons.1 way).2)

/-- No leaf of a walk lies on the way to another one. -/
theorem Walk.beside {scope : Scope} {position : Nat} {fields : List Field} {leaves : List Leaf}
    (walk : c.Walk scope position fields leaves) : Beside leaves := by
  induction walk with
  | nil => intro a mem; cases mem
  | apart role rest ih => exact ih
  | @feature scope position path isOptional attributes type override fields inner leaves value rest ihValue ih =>
    refine Beside.append position ?_ ih (fun leaf mem => ?_) fun leaf mem => rest.exists_cons mem
    · split
      · intro a memA b memB _
        rw [List.mem_singleton.1 memA, List.mem_singleton.1 memB]
      · exact ihValue.below _
    · split at mem
      · rw [List.mem_singleton.1 mem]
        exact ⟨_, _, rfl, rfl⟩
      · obtain ⟨inner, -, rfl⟩ := List.mem_map.1 mem
        exact ⟨_, _, rfl, rfl⟩
  | @nested scope position path isOptional type fields inner leaves value rest ihValue ih =>
    refine Beside.append position (ihValue.below _) ih (fun leaf mem => ?_) fun leaf mem =>
      rest.exists_cons mem
    obtain ⟨inner, -, rfl⟩ := List.mem_map.1 mem
    exact ⟨_, _, rfl, rfl⟩

/-- A member that is missing takes the values of the leaves below it with it, and no other value. -/
theorem Walk.value?_without {scope : Scope} {position : Nat} {fields : List Field} {leaves : List Leaf}
    (walk : c.Walk scope position fields leaves) (root : Record) {way : List Nat} (ne : way ≠ [])
    (onWay : ∃ leaf ∈ leaves, way <+: Leaf.steps leaf.chain) {leaf : Leaf} (mem : leaf ∈ leaves) :
    leaf.value? (root.without way) = if way <+: Leaf.steps leaf.chain then none else leaf.value? root := by
  refine root.follow?_without ne fun short => ?_
  obtain ⟨other, memOther, long⟩ := onWay
  have same := walk.beside leaf mem other memOther (short.trans long)
  exact short.eq_of_length_le (same ▸ long.length_le)

end Catalogue

end FeatureLines
