import Mathlib.Data.List.Infix
import FeatureLines.Proofs.Results
import FeatureLines.Schema.Extraction

/-!
# Walking a schema

A walk visits the fields of a record type in order, goes into the records that members hold, and lists the leaves with
the members that lead to them, root first. Unlike `Catalogue.extract`, which sees every feature from its own record and
moves the root up member by member, a walk goes down once with the scope in hand: `Catalogue.Walk` is the relation, and
`Leaf.descriptor` is what a leaf says when it is seen from the root.

Main statements: `Catalogue.extract_eq_walk`, extraction lists the descriptors of a walk, and `Catalogue.Walk.unique`.
-/

namespace FeatureLines

open Text

/-- A leaf of a schema: the members that lead to it, the root's first and its own last, the scope it lies in, and what
is said of it. -/
structure Leaf where
  chain : List Member
  scope : Scope
  attributes : Attributes
  type : ValueType
  override : Option Handle

namespace Leaf

/-- The leaf seen from the record that holds the root in a member. -/
def below (m : Member) (leaf : Leaf) : Leaf := { leaf with chain := m :: leaf.chain }

def path (chain : List Member) : String := ".".intercalate (chain.map Member.path)

/-- The fields that lead along a chain of members. -/
def steps (chain : List Member) : List Nat := chain.map Member.position

/-- The members that may be missing on a chain that goes on from a way, each with the way to it. -/
def guardsFrom (way : List Member) : List Member → List Guard
  | [] => []
  | m :: rest =>
    (if m.optional then [⟨path (way ++ [m]), steps (way ++ [m])⟩] else []) ++ guardsFrom (way ++ [m]) rest

/-- The name of a leaf before it is escaped: its own one, else that of its member. -/
def rawName (leaf : Leaf) : String :=
  if leaf.attributes.name.isEmpty then (leaf.chain.getLast?.map Member.path).getD "" else leaf.attributes.name

def descriptor (leaf : Leaf) : Descriptor where
  name := escape leaf.rawName
  path := path leaf.chain
  steps := steps leaf.chain
  type := leaf.type
  namespaceName := leaf.scope.namespaceName
  group := leaf.scope.group
  order := leaf.attributes.order.getD 0
  enumerize := leaf.attributes.enumerize
  addAnchor := leaf.attributes.addAnchor
  dictify := leaf.attributes.dictify
  strings := leaf.attributes.strings.getD .escapeAndIncludeName
  guards := guardsFrom [] leaf.chain
  override := leaf.override

end Leaf

namespace Catalogue

/-- The fields of the record that a value of a type is; other values have none. -/
def held (c : Catalogue) (type : ValueType) : List Field :=
  match type.form with
  | .record id => c.fields id
  | _ => []

/-- A walk over some fields, the first of which has a position, lists leaves. -/
inductive Walk (c : Catalogue) : Scope → Nat → List Field → List Leaf → Prop
  | nil {scope : Scope} {position : Nat} : Walk c scope position [] []
  /-- A field that holds no features. -/
  | apart {scope : Scope} {position : Nat} {field : Field} {fields : List Field} {leaves : List Leaf}
      (role : field.role = .label ∨ (∃ candidate, field.role = .actions candidate) ∨ field.role = .skipped)
      (rest : Walk c scope (position + 1) fields leaves) : Walk c scope position (field :: fields) leaves
  /-- A member with attributes is a leaf, unless its value is a record that has leaves. -/
  | feature {scope : Scope} {position : Nat} {path : String} {isOptional : Bool} {attributes : Attributes}
      {type : ValueType} {override : Option Handle} {fields : List Field} {inner leaves : List Leaf}
      (value : Walk c (scope.enter attributes) 0 (c.held type) inner) (rest : Walk c scope (position + 1) fields leaves) :
      Walk c scope position (⟨path, isOptional, .feature attributes type override⟩ :: fields)
        ((if inner.isEmpty then [⟨[⟨position, path, isOptional⟩], scope.enter attributes, attributes, type, override⟩]
          else inner.map (.below ⟨position, path, isOptional⟩)) ++ leaves)
  /-- A member without attributes is as many leaves as the record that it holds has. -/
  | nested {scope : Scope} {position : Nat} {path : String} {isOptional : Bool} {type : ValueType} {fields : List Field}
      {inner leaves : List Leaf} (value : Walk c scope 0 (c.held type) inner)
      (rest : Walk c scope (position + 1) fields leaves) :
      Walk c scope position (⟨path, isOptional, .nested type⟩ :: fields)
        (inner.map (.below ⟨position, path, isOptional⟩) ++ leaves)

end Catalogue

/-! ## Leaves seen from the root -/

namespace Leaf

/-- The path of a leaf is the path of the first member, a point, and the path of the rest. -/
lemma path_cons (m : Member) {chain : List Member} (ne : chain ≠ []) : path (m :: chain) = m.path ++ "." ++ path chain := by
  unfold path
  rw [List.map_cons, String.intercalate_cons_of_ne_nil (by simpa using ne)]

lemma path_singleton (m : Member) : path [m] = m.path := String.intercalate_singleton

/-- Guards on a way that starts with a member are those on the rest of the way, seen from the record above. -/
lemma guardsFrom_cons (m : Member) (way chain : List Member) :
    guardsFrom (m :: way) chain = (guardsFrom way chain).map (Guard.below m) := by
  induction chain generalizing way with
  | nil => rfl
  | cons d chain ih =>
    have longer : path (m :: (way ++ [d])) = m.path ++ "." ++ path (way ++ [d]) := path_cons m (by simp)
    have rest := ih (way ++ [d])
    rw [← List.cons_append] at longer rest
    rw [guardsFrom, guardsFrom, rest, List.map_append, longer]
    cases d.optional <;> rfl

/-- The guards of a leaf are that of the first member and those of the rest, seen from that member. -/
lemma guardsFrom_nil_cons (m : Member) (chain : List Member) :
    guardsFrom [] (m :: chain) = Guard.ofMember m ++ (guardsFrom [] chain).map (Guard.below m) := by
  rw [guardsFrom, List.nil_append, guardsFrom_cons, path_singleton]
  rfl

/-- A leaf seen from its own record has the descriptor of a feature there. -/
lemma descriptor_singleton (m : Member) (scope : Scope) (attributes : Attributes) (type : ValueType)
    (override : Option Handle) :
    (⟨[m], scope, attributes, type, override⟩ : Leaf).descriptor = .ofFeature m attributes scope type override := by
  have guards : guardsFrom [] [m] = Guard.ofMember m := by
    rw [guardsFrom_nil_cons]
    exact List.append_nil _
  unfold descriptor
  simp only
  rw [path_singleton, guards]
  rfl

/-- A leaf seen from the record above has the descriptor seen from there. -/
lemma descriptor_below (m : Member) {leaf : Leaf} (ne : leaf.chain ≠ []) :
    (leaf.below m).descriptor = leaf.descriptor.below m := by
  have name : (leaf.below m).rawName = leaf.rawName := by
    unfold rawName below
    rw [List.getLast?_cons, List.getLast?_eq_some_getLast ne]
    rfl
  unfold descriptor Descriptor.below
  rw [name]
  simp only [below]
  rw [path_cons m ne, guardsFrom_nil_cons]
  rfl

end Leaf

namespace Catalogue

variable {c : Catalogue}

/-- Every leaf of a walk stands in a member. -/
lemma Walk.chain_ne_nil {scope : Scope} {position : Nat} {fields : List Field} {leaves : List Leaf}
    (walk : c.Walk scope position fields leaves) : ∀ leaf ∈ leaves, leaf.chain ≠ [] := by
  induction walk with
  | nil => simp
  | apart role rest ih => exact ih
  | feature value rest _ ih =>
    intro leaf mem
    rcases List.mem_append.1 mem with here | later
    · split at here
      · rw [List.mem_singleton.1 here]
        simp
      · obtain ⟨inner, -, rfl⟩ := List.mem_map.1 here
        simp [Leaf.below]
    · exact ih leaf later
  | nested value rest _ ih =>
    intro leaf mem
    rcases List.mem_append.1 mem with here | later
    · obtain ⟨inner, -, rfl⟩ := List.mem_map.1 here
      simp [Leaf.below]
    · exact ih leaf later

/-- Leaves of a nested type are described from outside by leading the way to them through the member. -/
lemma Walk.map_descriptor_below {scope : Scope} {position : Nat} {fields : List Field} {leaves : List Leaf}
    (walk : c.Walk scope position fields leaves) (m : Member) :
    (leaves.map Leaf.descriptor).map (.below m) = (leaves.map (.below m)).map Leaf.descriptor := by
  rw [List.map_map, List.map_map]
  apply List.map_congr_left
  intro leaf mem
  exact (Leaf.descriptor_below m (walk.chain_ne_nil leaf mem)).symm

/-- There is one walk. -/
theorem Walk.unique {scope : Scope} {position : Nat} {fields : List Field} {leaves leaves' : List Leaf}
    (walk : c.Walk scope position fields leaves) (walk' : c.Walk scope position fields leaves') : leaves = leaves' := by
  induction walk generalizing leaves' with
  | nil => cases walk'; rfl
  | apart role rest ih =>
    cases walk' with
    | apart _ rest' => exact ih rest'
    | feature _ _ => simp at role
    | nested _ _ => simp at role
  | feature value rest ihValue ih =>
    cases walk' with
    | apart role _ => simp at role
    | feature value' rest' => rw [ihValue value', ih rest']
  | nested value rest ihValue ih =>
    cases walk' with
    | apart role _ => simp at role
    | nested value' rest' => rw [ihValue value', ih rest']

/-- A type that is not declared has no fields. -/
lemma fields_of_length_le {id : Nat} (far : c.length ≤ id) : c.fields id = [] := by
  unfold fields
  rw [List.getElem?_eq_none far]
  rfl

/-- Fields that can be extracted can be walked, and the features are the leaves of the walk. -/
lemma extractFields_eq_walk (c : Catalogue) (closed : List Nat) (scope : Scope) (position : Nat) (fields : List Field)
    {ds : List Descriptor} (ok : c.extractFields closed scope position fields = .ok ds) :
    ∃ leaves, c.Walk scope position fields leaves ∧ ds = leaves.map Leaf.descriptor := by
  induction closed, scope, position, fields using extractFields.induct c generalizing ds with
  | case1 closed scope position =>
    rw [extractFields] at ok
    cases ok
    exact ⟨[], .nil, rfl⟩
  | case2 closed scope position field rest ihHeld ihRest =>
    -- the fields of the value are walked with its type taken off the types that are still open
    have value (type : ValueType) (inner : Scope) {ds : List Descriptor}
        (ok : (match type.form with
          | .record id =>
            if _h : id ∈ closed then extractFields c (closed.erase id) inner 0 (c.fields id)
            else if id < c.length then .error (.recursiveSchema type.name field.path)
            else .ok []
          | _ => .ok []) = .ok ds) :
        ∃ leaves, c.Walk inner 0 (c.held type) leaves ∧ ds = leaves.map Leaf.descriptor := by
      unfold held
      split at ok
      · rename_i id form
        split at ok
        · rename_i mem
          exact ihHeld inner id mem ok
        · split at ok
          · cases ok
          · rename_i far
            cases ok
            rw [fields_of_length_le (Nat.le_of_not_lt far)]
            exact ⟨[], .nil, rfl⟩
      · cases ok
        exact ⟨[], .nil, rfl⟩
    obtain ⟨path, isOptional, role⟩ := field
    rw [extractFields] at ok
    simp only at ok
    obtain ⟨here, foundHere, ok⟩ := Except.bind_eq_ok.1 ok
    obtain ⟨later, foundLater, rfl⟩ := Except.map_eq_ok.1 ok
    obtain ⟨leaves, walk, rfl⟩ := ihRest foundLater
    cases role with
    | feature attributes type override =>
      obtain ⟨inner, found, rfl⟩ := Except.map_eq_ok.1 foundHere
      obtain ⟨innerLeaves, innerWalk, rfl⟩ := value type (scope.enter attributes) found
      refine ⟨_, .feature innerWalk walk, ?_⟩
      rw [List.map_append, List.isEmpty_map]
      split
      · rw [List.map_singleton, Leaf.descriptor_singleton]
        rfl
      · rw [innerWalk.map_descriptor_below]
    | nested type =>
      obtain ⟨inner, found, rfl⟩ := Except.map_eq_ok.1 foundHere
      obtain ⟨innerLeaves, innerWalk, rfl⟩ := value type scope found
      refine ⟨_, .nested innerWalk walk, ?_⟩
      -- a member without attributes that holds no features is no feature itself, so the two branches are one
      have same : (if (innerLeaves.map Leaf.descriptor).isEmpty then ([] : List Descriptor)
          else (innerLeaves.map Leaf.descriptor).map (.below ⟨position, path, isOptional⟩)) =
          (innerLeaves.map Leaf.descriptor).map (.below ⟨position, path, isOptional⟩) := by
        cases innerLeaves <;> rfl
      change (if (innerLeaves.map Leaf.descriptor).isEmpty then [] else _) ++ _ = _
      rw [same, List.map_append, innerWalk.map_descriptor_below]
    | label =>
      cases foundHere
      exact ⟨leaves, .apart (.inl rfl) walk, rfl⟩
    | actions candidate =>
      cases foundHere
      exact ⟨leaves, .apart (.inr (.inl ⟨candidate, rfl⟩)) walk, rfl⟩
    | skipped =>
      cases foundHere
      exact ⟨leaves, .apart (.inr (.inr rfl)) walk, rfl⟩

/-- The features of a record type are the leaves of a walk over it. -/
theorem extract_eq_walk {scope : Scope} {id : Nat} {ds : List Descriptor} (ok : c.extract scope id = .ok ds) :
    ∃ leaves, c.Walk scope 0 (c.fields id) leaves ∧ ds = leaves.map Leaf.descriptor :=
  extractFields_eq_walk c _ scope 0 _ ok

end Catalogue

end FeatureLines
