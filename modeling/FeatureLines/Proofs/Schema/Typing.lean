import Mathlib.Data.List.Nodup
import FeatureLines.Marshal.Registry
import FeatureLines.Proofs.Schema.Presence
import FeatureLines.Proofs.Schema.Recursion

/-!
# Typed records

Records are lists of cells, and a cell is stored as a value of some type. A record is of a declared type when every member
that is there is stored as a value of the type that it is declared with (`Catalogue.HasType`, `Catalogue.IsRecord`). A
walk leads to values of the types of its leaves (`Catalogue.Walk.hasType`), however deep they lie.

Marshallers are bound to types. A registry that registrations make gives for a type a marshaller that is bound to it
(`Registry.bound_ofCalls`), and if the marshallers of members are bound to the types of their members, those of leaves
are bound to the types of the leaves (`Catalogue.Walk.bound`).
-/

namespace FeatureLines

/-- Data is of the kind that a form is for; where nothing is known of the values, any data is. -/
def Datum.Fits : Datum → Form → Prop
  | _, .scalar .hidden => True
  | scalar _, .scalar _ => True
  | variant _, .enumeration _ => True
  | items _, .vector _ => True
  | items _, .block _ => True
  | items _, .set _ => True
  | entries _, .entries _ _ => True
  | label _, .label => True
  | _, _ => False

namespace Catalogue

mutual

/-- A cell is stored as a value of a type. -/
inductive HasType (c : Catalogue) : ValueType → Cell → Prop
  | leaf {site : Site} {datum : Datum} (fits : datum.Fits site.type.form) : HasType c site.type (.leaf site datum)
  | record {site : Site} {fields : Record} {id : Nat} (form : site.type.form = .record id) (typed : IsRecord c id fields) :
      HasType c site.type (.record site fields)
  | candidates {site : Site} {items : List Record} {id : Nat} (form : site.type.form = .candidates id)
      (typed : ∀ item ∈ items, IsRecord c id item) : HasType c site.type (.candidates site items)

/-- The members of a record that are there are of their types, and so are its candidates. -/
inductive IsRecord (c : Catalogue) : Nat → Record → Prop
  | of {id : Nat} {root : Record}
      (members : ∀ position field type cell, (c.fields id)[position]? = some field → field.role.value? = some type →
        root.field? position = some cell → HasType c type cell)
      (candidates : ∀ member candidate site items item, (member, candidate) ∈ c.actions id →
        root.field? member.position = some (.candidates site items) → item ∈ items → IsRecord c candidate item) :
      IsRecord c id root

end

variable {c : Catalogue}

/-- A value stands at a site of its type. -/
lemma HasType.site {type : ValueType} {cell : Cell} (typed : c.HasType type cell) : cell.site.type = type := by
  cases typed with
  | leaf fits => rfl
  | record form typed => rfl
  | candidates form typed => rfl

/-- The record in a member of a type is of the type's record type. -/
lemma HasType.isRecord {type : ValueType} {site : Site} {fields : Record} (typed : c.HasType type (.record site fields)) :
    ∃ id, type.form = .record id ∧ c.IsRecord id fields := by
  cases typed with
  | record form typed => exact ⟨_, form, typed⟩

/-- The members of a record from a position on are of the types of some fields. -/
def AreTyped (c : Catalogue) (position : Nat) (fields : List Field) (root : Record) : Prop :=
  ∀ i field type cell, fields[i]? = some field → field.role.value? = some type →
    root.field? (position + i) = some cell → c.HasType type cell

/-- A member more, in front of the others. -/
lemma AreTyped.cons {field : Field} {fields : List Field} {cell : Option Cell} {root : Record}
    (here : ∀ type value, field.role.value? = some type → cell = some value → c.HasType type value)
    (rest : c.AreTyped 0 fields root) : c.AreTyped 0 (field :: fields) (cell :: root) := by
  intro i field' type value at' declared found
  cases i with
  | zero =>
    cases at'
    exact here type value declared found
  | succ i =>
    rw [Nat.zero_add] at found
    refine rest i field' type value at' declared ?_
    rwa [Nat.zero_add]

/-- A record may begin with a value of the declared type, if the rest is typed. -/
lemma AreTyped.cons_leaf {field : Field} {fields : List Field} {site : Site} {datum : Datum} {root : Record}
    (declared : field.role.value? = some site.type) (fits : datum.Fits site.type.form) (rest : c.AreTyped 0 fields root) :
    c.AreTyped 0 (field :: fields) (some (.leaf site datum) :: root) := by
  refine .cons (fun type value found held => ?_) rest
  cases declared.symm.trans found
  cases held
  exact .leaf fits

lemma AreTyped.nil {root : Record} : c.AreTyped 0 [] root := fun _ _ _ _ at' => nomatch at'

/-- A record has a type if its members and its candidates have theirs. -/
lemma IsRecord.of_areTyped {id : Nat} {root : Record} (members : c.AreTyped 0 (c.fields id) root)
    (candidates : ∀ member candidate site items item, (member, candidate) ∈ c.actions id →
      root.field? member.position = some (.candidates site items) → item ∈ items → c.IsRecord candidate item) :
    c.IsRecord id root := by
  refine .of (fun position field type cell at' value found => ?_) candidates
  rw [← Nat.zero_add position] at found
  exact members position field type cell at' value found

/-- The members of a record have the types that are declared for them. -/
lemma IsRecord.areTyped {id : Nat} {root : Record} (typed : c.IsRecord id root) : c.AreTyped 0 (c.fields id) root := by
  cases typed with
  | of members candidates =>
    intro i field type cell at' value found
    rw [Nat.zero_add] at found
    exact members i field type cell at' value found

/-- A member that has a value has one of its type. -/
lemma AreTyped.head {position : Nat} {field : Field} {fields : List Field} {root : Record} {type : ValueType} {cell : Cell}
    (typed : c.AreTyped position (field :: fields) root) (value : field.role.value? = some type)
    (found : root.field? position = some cell) : c.HasType type cell := typed 0 field type cell rfl value found

/-- Behind the first member, the others have their types. -/
lemma AreTyped.tail {position : Nat} {field : Field} {fields : List Field} {root : Record}
    (typed : c.AreTyped position (field :: fields) root) : c.AreTyped (position + 1) fields root := by
  intro i field' type cell at' value found
  rw [Nat.add_right_comm, Nat.add_assoc] at found
  exact typed (i + 1) field' type cell at' value found

/-- A record in a member has members of the types of the fields that the member holds. -/
lemma HasType.areTyped {type : ValueType} {site : Site} {fields : Record} (typed : c.HasType type (.record site fields)) :
    c.AreTyped 0 (c.held type) fields := by
  obtain ⟨id, form, typed⟩ := typed.isRecord
  rw [held, form]
  exact typed.areTyped

/-- A leaf below a member leads through the record that the member holds. -/
lemma value?_below {m : Member} {leaf : Leaf} (ne : leaf.chain ≠ []) {root : Record} {cell : Cell}
    (found : (leaf.below m).value? root = some cell) :
    ∃ site fields, root.field? m.position = some (.record site fields) ∧ leaf.value? fields = some cell := by
  have deep : Leaf.steps leaf.chain ≠ [] := by simpa [Leaf.steps] using ne
  change root.follow? (m.position :: Leaf.steps leaf.chain) = some cell at found
  rw [Record.follow?_cons root m.position deep] at found
  split at found
  · rename_i site fields held
    exact ⟨site, fields, held, found⟩
  · cases found

/-- A walk leads to values of the types of its leaves. -/
theorem Walk.hasType {scope : Scope} {position : Nat} {fields : List Field} {leaves : List Leaf}
    (walk : c.Walk scope position fields leaves) {root : Record} (typed : c.AreTyped position fields root) :
    ∀ leaf ∈ leaves, ∀ cell, leaf.value? root = some cell → c.HasType leaf.type cell := by
  induction walk generalizing root with
  | nil =>
    intro leaf mem
    cases mem
  | apart role rest ih => exact ih typed.tail
  | feature value rest ihValue ih =>
    intro leaf mem cell found
    rcases List.mem_append.1 mem with here | later
    · split at here
      · rw [List.mem_singleton.1 here] at found ⊢
        exact typed.head rfl found
      · obtain ⟨inner, innerMem, rfl⟩ := List.mem_map.1 here
        obtain ⟨site, fields, held, found⟩ := value?_below (value.chain_ne_nil inner innerMem) found
        exact ihValue (typed.head rfl held).areTyped inner innerMem cell found
    · exact ih typed.tail leaf later cell found
  | nested value rest ihValue ih =>
    intro leaf mem cell found
    rcases List.mem_append.1 mem with here | later
    · obtain ⟨inner, innerMem, rfl⟩ := List.mem_map.1 here
      obtain ⟨site, fields, held, found⟩ := value?_below (value.chain_ne_nil inner innerMem) found
      exact ihValue (typed.head rfl held).areTyped inner innerMem cell found
    · exact ih typed.tail leaf later cell found

/-- Leaves that start with one field lie at other places than those that start with later ones. -/
lemma nodup_steps_append (position : Nat) {here later : List Leaf}
    (first : (here.map fun leaf => Leaf.steps leaf.chain).Nodup)
    (second : (later.map fun leaf => Leaf.steps leaf.chain).Nodup)
    (starts : ∀ leaf ∈ here, ∃ m chain, leaf.chain = m :: chain ∧ m.position = position)
    (follows : ∀ leaf ∈ later, ∃ m chain, leaf.chain = m :: chain ∧ position + 1 ≤ m.position) :
    ((here ++ later).map fun leaf => Leaf.steps leaf.chain).Nodup := by
  rw [List.map_append]
  refine List.nodup_append.2 ⟨first, second, fun a memA b memB same => ?_⟩
  obtain ⟨leafA, inA, rfl⟩ := List.mem_map.1 memA
  obtain ⟨leafB, inB, rfl⟩ := List.mem_map.1 memB
  obtain ⟨m, chain, eq, at_⟩ := starts leafA inA
  obtain ⟨m', chain', eq', le⟩ := follows leafB inB
  rw [eq, eq'] at same
  have same : m.position = m'.position := (List.cons.inj same).1
  omega

/-- Ways that differ still do so when one member leads to all of them. -/
lemma nodup_steps_below (m : Member) {leaves : List Leaf} (apart : (leaves.map fun leaf => Leaf.steps leaf.chain).Nodup) :
    ((leaves.map (Leaf.below m)).map fun leaf => Leaf.steps leaf.chain).Nodup := by
  have longer : (leaves.map (Leaf.below m)).map (fun leaf => Leaf.steps leaf.chain) =
      (leaves.map fun leaf => Leaf.steps leaf.chain).map (m.position :: ·) := by
    rw [List.map_map, List.map_map]
    rfl
  rw [longer]
  exact List.Nodup.map List.cons_injective apart

/-- No two leaves of a walk lie at one place. -/
theorem Walk.nodup_steps {scope : Scope} {position : Nat} {fields : List Field} {leaves : List Leaf}
    (walk : c.Walk scope position fields leaves) : (leaves.map fun leaf => Leaf.steps leaf.chain).Nodup := by
  induction walk with
  | nil => exact List.nodup_nil
  | apart role rest ih => exact ih
  | @feature scope position path isOptional attributes type override fields inner leaves value rest ihValue ih =>
    refine nodup_steps_append position ?_ ih (fun leaf mem => ?_) fun leaf mem => rest.exists_cons mem
    · split
      · exact List.pairwise_singleton _ _
      · exact nodup_steps_below _ ihValue
    · split at mem
      · rw [List.mem_singleton.1 mem]
        exact ⟨_, _, rfl, rfl⟩
      · obtain ⟨inner, -, rfl⟩ := List.mem_map.1 mem
        exact ⟨_, _, rfl, rfl⟩
  | @nested scope position path isOptional type fields inner leaves value rest ihValue ih =>
    refine nodup_steps_append position (nodup_steps_below _ ihValue) ih (fun leaf mem => ?_) fun leaf mem =>
      rest.exists_cons mem
    obtain ⟨inner, -, rfl⟩ := List.mem_map.1 mem
    exact ⟨_, _, rfl, rfl⟩

end Catalogue

/-! ## Marshallers of members and of types -/

/-- The marshaller of a field, if it has one of its own, is bound to the type of the field. -/
def Field.Bound (field : Field) : Prop :=
  ∀ attributes type handle, field.role = .feature attributes type (some handle) → handle.bound = some type

namespace Catalogue

/-- The marshallers of fields are bound to the types of the fields. -/
def Bound (c : Catalogue) : Prop := ∀ id, ∀ field ∈ c.fields id, field.Bound

variable {c : Catalogue}

/-- The members that hold a type are bound. -/
lemma Bound.held (bound : c.Bound) (type : ValueType) : ∀ field ∈ c.held type, field.Bound := by
  unfold Catalogue.held
  split
  · exact bound _
  · intro field mem
    cases mem

/-- The marshaller of a leaf, if it has one of its own, is bound to the type of the leaf. -/
theorem Walk.bound {scope : Scope} {position : Nat} {fields : List Field} {leaves : List Leaf}
    (walk : c.Walk scope position fields leaves) (all : c.Bound) (own : ∀ field ∈ fields, field.Bound) :
    ∀ leaf ∈ leaves, ∀ handle, leaf.override = some handle → handle.bound = some leaf.type := by
  induction walk with
  | nil =>
    intro leaf mem
    cases mem
  | apart role rest ih => exact ih (List.forall_mem_cons.1 own).2
  | feature value rest ihValue ih =>
    obtain ⟨first, others⟩ := List.forall_mem_cons.1 own
    intro leaf mem handle override
    rcases List.mem_append.1 mem with here | later
    · split at here
      · rw [List.mem_singleton.1 here] at override ⊢
        simp only at override
        subst override
        exact first _ _ handle rfl
      · obtain ⟨inner, innerMem, rfl⟩ := List.mem_map.1 here
        exact ihValue (all.held _) inner innerMem handle override
    · exact ih others leaf later handle override
  | nested value rest ihValue ih =>
    obtain ⟨first, others⟩ := List.forall_mem_cons.1 own
    intro leaf mem handle override
    rcases List.mem_append.1 mem with here | later
    · obtain ⟨inner, innerMem, rfl⟩ := List.mem_map.1 here
      exact ihValue (all.held _) inner innerMem handle override
    · exact ih others leaf later handle override

end Catalogue

/-- A registration: a type with a marshaller that is bound to it. -/
structure Registration where
  type : ValueType
  entry : Entry
  bound : entry.handle.bound = some type

namespace Registry

/-- The registry that registrations make, one after the other. -/
def ofCalls (calls : List Registration) : Registry := calls.foldl (fun r call => r.register call.type call.entry) empty

/-- What is given for a type is bound to it. -/
def Bound (r : Registry) : Prop := ∀ type handle, r.get? type = some handle → handle.bound = some type

lemma lookup_filter_ne {β : Type} (bindings : List (ValueType × β)) (type other : ValueType) :
    (bindings.filter (·.1 ≠ type)).lookup other = if other = type then none else bindings.lookup other := by
  induction bindings with
  | nil => simp
  | cons binding rest ih =>
    obtain ⟨key, value⟩ := binding
    by_cases same : key = type
    · subst same
      rw [List.filter_cons_of_neg (by simp), ih]
      split
      · rfl
      · rename_i asked
        rw [List.lookup_cons, beq_eq_false_iff_ne.2 asked]
    · rw [List.filter_cons_of_pos (by simpa using same), List.lookup_cons, List.lookup_cons, ih]
      by_cases asked : other = key
      · subst asked
        simp [same]
      · rw [beq_eq_false_iff_ne.2 asked]

/-- The last registration of a type counts. -/
lemma entry?_register (r : Registry) (type other : ValueType) (entry : Entry) :
    Registry.entry? (r.register type entry) other = if other = type then some entry else r.entry? other := by
  unfold entry? register
  rw [List.lookup_append, lookup_filter_ne]
  by_cases same : other = type
  · subst same
    simp
  · simp [same, beq_eq_false_iff_ne.2 same, List.lookup_cons]

/-- A registration keeps a registry bound. -/
lemma Bound.register {r : Registry} (bound : r.Bound) (call : Registration) :
    (r.register call.type call.entry).Bound := by
  intro type handle found
  rw [get?, entry?_register] at found
  split at found
  · rename_i same
    cases found
    rw [same]
    exact call.bound
  · exact bound type handle found

/-- Whatever is registered, what is given for a type is bound to it. -/
theorem bound_ofCalls (calls : List Registration) : (ofCalls calls).Bound := by
  have run (r : Registry) (bound : r.Bound) : (calls.foldl (fun r call => r.register call.type call.entry) r).Bound := by
    induction calls generalizing r with
    | nil => exact bound
    | cons call rest ih => exact ih _ (bound.register call)
  exact run empty fun type handle found => by cases found

end Registry

end FeatureLines
