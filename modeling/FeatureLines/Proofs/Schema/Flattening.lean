import Mathlib.Data.List.Infix
import FeatureLines.Proofs.Schema.Presence
import FeatureLines.Proofs.Schema.Recursion

/-!
# Flattening

A chain of fields leads from a record type down to a leaf: a field with attributes whose type has no features of its own
(`Catalogue.Leads`). What a descriptor says of its leaf is read off the chain, from the root down
(`Descriptor.Describes`): extraction sees every feature from the record that it lies in, and moves the root up member by
member, with the guards and the getters made again at each one.

Main statement: `Catalogue.extract_describes`. A type has features exactly if extraction lists some
(`Catalogue.extract_ne_nil_iff`).
-/

namespace FeatureLines

open Relation Text

/-- A field on the way to a leaf, with its place in the record. -/
structure Link where
  position : Nat
  field : Field

namespace Link

def member (l : Link) : Member := ⟨l.position, l.field.path, l.field.optional⟩

/-- What is said at the field, if it is annotated. -/
def attributes? (l : Link) : Option Attributes :=
  match l.field.role with
  | .feature attributes _ _ => some attributes
  | _ => none

end Link

/-- The dotted path of a chain of fields. -/
def dotted (chain : List Link) : String := ".".intercalate (chain.map fun l => l.field.path)

/-- What is declared last along a chain; before it, something may be declared already. -/
def lastDeclared {β : Type} (declares : Attributes → Option β) (before : Option β) (chain : List Link) : Option β :=
  (chain.filterMap fun l => l.attributes?.bind declares).getLast?.or before

/-- The chains to the fields that may be missing on a chain, root first. -/
def optionalFronts (chain : List Link) : List (List Link) :=
  chain.inits.filter fun front => front.getLast?.any fun l => l.field.optional

/-- The getters of a chain of fields, each on what the one before it gives, give a cell. -/
inductive Record.Reaches : Record → List Link → Cell → Prop
  | last {root : Record} {l : Link} {cell : Cell} (get : root.field? l.position = some cell) : Reaches root [l] cell
  | onward {root fields : Record} {l : Link} {site : Site} {chain : List Link} {cell : Cell}
      (get : root.field? l.position = some (.record site fields)) (rest : Reaches fields chain cell) :
      Reaches root (l :: chain) cell

/-- A descriptor says what a chain of fields comes to, seen from a scope. -/
structure Descriptor.Describes (scope : Scope) (chain : List Link) (d : Descriptor) : Prop where
  path : d.path = dotted chain
  namespaceName : d.namespaceName = lastDeclared Attributes.namespaceName scope.namespaceName chain
  group : d.group = lastDeclared Attributes.group scope.group chain
  own : ∃ l attributes, chain.getLast? = some l ∧ l.field.role = .feature attributes d.type d.override ∧
    d.name = escape (if attributes.name.isEmpty then l.field.path else attributes.name) ∧
    d.order = attributes.order.getD 0 ∧ d.enumerize = attributes.enumerize ∧ d.addAnchor = attributes.addAnchor ∧
    d.dictify = attributes.dictify ∧ d.strings = attributes.strings.getD .escapeAndIncludeName
  guards : List.Forall₂ (fun front g => g.path = dotted front ∧
    ∀ root, g.holds root = true ↔ ∃ cell, Record.Reaches root front cell) (optionalFronts chain) d.guards
  value : ∀ root cell, d.value? root = some cell ↔ Record.Reaches root chain cell

/-- Fields with their places, the first of which is given. -/
def linksFrom (position : Nat) : List Field → List Link
  | [] => []
  | field :: rest => ⟨position, field⟩ :: linksFrom (position + 1) rest

namespace Catalogue

/-- Some fields have features: one of them is annotated, or holds a record whose fields have features. -/
inductive Featured (c : Catalogue) : List Field → Prop
  | own {fields : List Field} {field : Field} {attributes : Attributes} {type : ValueType} {override : Option Handle}
      (mem : field ∈ fields) (role : field.role = .feature attributes type override) : Featured c fields
  | inside {fields : List Field} {field : Field} {type : ValueType} (mem : field ∈ fields)
      (role : field.role = .nested type) (value : Featured c (c.held type)) : Featured c fields

/-- A chain leads from some fields to a leaf, which is annotated and whose type has no features. -/
inductive Leads (c : Catalogue) : List Link → List Link → Prop
  | leaf {links : List Link} {l : Link} {attributes : Attributes} {type : ValueType} {override : Option Handle}
      (mem : l ∈ links) (role : l.field.role = .feature attributes type override) (bare : ¬c.Featured (c.held type)) :
      Leads c links [l]
  | onward {links chain : List Link} {l : Link} {type : ValueType} (mem : l ∈ links)
      (value : l.field.role.value? = some type) (rest : Leads c (linksFrom 0 (c.held type)) chain) :
      Leads c links (l :: chain)

/-- No record type that can be reached along members reaches itself. -/
def Acyclic (c : Catalogue) (id : Nat) : Prop := ∀ id', ReflTransGen c.Holds id id' → ¬TransGen c.Holds id' id'

end Catalogue

/-! ## Chains -/

lemma lastDeclared_cons {β : Type} (declares : Attributes → Option β) (before : Option β) (l : Link) (chain : List Link) :
    lastDeclared declares before (l :: chain) = lastDeclared declares ((l.attributes?.bind declares).or before) chain := by
  unfold lastDeclared
  rw [List.filterMap_cons]
  cases l.attributes?.bind declares with
  | none => rfl
  | some b =>
    rw [List.getLast?_cons]
    cases (chain.filterMap fun l => l.attributes?.bind declares).getLast? <;> rfl

lemma Record.reaches_iff {root : Record} {chain : List Link} {cell : Cell} :
    root.Reaches chain cell ↔ root.follow? (Leaf.steps (chain.map Link.member)) = some cell := by
  constructor
  · intro reaches
    induction reaches with
    | last get => exact get
    | @onward root fields l site chain cell get rest ih =>
      have more : Leaf.steps (chain.map Link.member) ≠ [] := by
        cases rest <;> exact List.cons_ne_nil _ _
      change root.follow? (l.position :: Leaf.steps (chain.map Link.member)) = some cell
      rw [follow?_cons root l.position more, get]
      exact ih
  · intro found
    induction chain generalizing root with
    | nil => cases found
    | cons l chain ih =>
      cases chain with
      | nil => exact .last found
      | cons next chain =>
        have more : Leaf.steps ((next :: chain).map Link.member) ≠ [] := List.cons_ne_nil _ _
        change root.follow? (l.position :: Leaf.steps ((next :: chain).map Link.member)) = some cell at found
        rw [follow?_cons root l.position more] at found
        split at found
        · rename_i get
          exact .onward get (ih found)
        · cases found

lemma optionalFronts_cons (l : Link) (chain : List Link) :
    optionalFronts (l :: chain) = (if l.field.optional then [[l]] else []) ++ (optionalFronts chain).map (l :: ·) := by
  -- a front that goes on beyond the first field ends where the rest of it ends
  have longer (m : Link) : (fun front : List Link => (l :: m :: front).getLast?.any fun l => l.field.optional) =
      fun front => (m :: front).getLast?.any fun l => l.field.optional := by
    funext front
    rw [List.getLast?_cons_cons]
  unfold optionalFronts
  cases chain with
  | nil => cases optional : l.field.optional <;> simp [optional]
  | cons m chain =>
    simp only [List.inits_cons, List.filter_cons, List.filter_map, List.map_cons, List.map_map, Function.comp_def, longer]
    cases optional : l.field.optional <;> simp [optional]

namespace Leaf

lemma path_map_member (chain : List Link) : path (chain.map Link.member) = dotted chain := by
  unfold path dotted
  rw [List.map_map]
  rfl

/-- The guards of a leaf are the members that may be missing, each with the way to it. -/
lemma guardsFrom_eq (way : List Member) (chain : List Link) :
    guardsFrom way (chain.map Link.member) = (optionalFronts chain).map fun front =>
      ⟨path (way ++ front.map Link.member), steps (way ++ front.map Link.member)⟩ := by
  induction chain generalizing way with
  | nil => rfl
  | cons l chain ih =>
    rw [optionalFronts_cons, List.map_cons, guardsFrom, ih, List.map_append, List.map_map]
    congr 1
    · change (if l.field.optional then _ else _) = _
      split <;> rfl
    · refine List.map_congr_left fun front _ => ?_
      simp

/-- A leaf is what a chain of fields comes to, seen from a scope. -/
structure Ends (scope : Scope) (chain : List Link) (leaf : Leaf) : Prop where
  members : leaf.chain = chain.map Link.member
  namespaceName : leaf.scope.namespaceName = lastDeclared Attributes.namespaceName scope.namespaceName chain
  group : leaf.scope.group = lastDeclared Attributes.group scope.group chain
  own : ∃ l, chain.getLast? = some l ∧ l.field.role = .feature leaf.attributes leaf.type leaf.override

/-- A leaf seen from the record above is what the longer chain comes to. -/
lemma Ends.below {scope inner : Scope} {l : Link} {chain : List Link} {leaf : Leaf} (ends : Ends inner chain leaf)
    (namespaceName : inner.namespaceName = (l.attributes?.bind Attributes.namespaceName).or scope.namespaceName)
    (group : inner.group = (l.attributes?.bind Attributes.group).or scope.group) :
    Ends scope (l :: chain) (leaf.below l.member) where
  members := congrArg (l.member :: ·) ends.members
  namespaceName := by
    rw [lastDeclared_cons, ← namespaceName]
    exact ends.namespaceName
  group := by
    rw [lastDeclared_cons, ← group]
    exact ends.group
  own := by
    obtain ⟨last, found, role⟩ := ends.own
    refine ⟨last, ?_, role⟩
    rw [List.getLast?_cons, found]
    rfl

/-- The descriptor of a leaf says what its chain comes to. -/
lemma Ends.describes {scope : Scope} {chain : List Link} {leaf : Leaf} (ends : Ends scope chain leaf) :
    leaf.descriptor.Describes scope chain where
  path := by
    rw [← path_map_member, ← ends.members]
    rfl
  namespaceName := ends.namespaceName
  group := ends.group
  own := by
    obtain ⟨l, last, role⟩ := ends.own
    have name : leaf.rawName = if leaf.attributes.name.isEmpty then l.field.path else leaf.attributes.name := by
      unfold rawName
      rw [ends.members, List.getLast?_map, last]
      rfl
    exact ⟨l, leaf.attributes, last, role, congrArg escape name, rfl, rfl, rfl, rfl, rfl⟩
  guards := by
    change List.Forall₂ _ _ (guardsFrom [] leaf.chain)
    rw [ends.members, guardsFrom_eq, List.forall₂_map_right_iff, List.forall₂_same]
    refine fun front _ => ⟨path_map_member front, fun root => ?_⟩
    simp only [Record.reaches_iff]
    exact Option.isSome_iff_exists
  value := by
    intro root cell
    rw [leaf.descriptor_value? root, value?, ends.members]
    exact Record.reaches_iff.symm

end Leaf

/-! ## Walks -/

namespace Catalogue

variable {c : Catalogue}

lemma featured_cons_iff {field : Field} {fields : List Field} :
    c.Featured (field :: fields) ↔ (∃ attributes type override, field.role = .feature attributes type override) ∨
      (∃ type, field.role = .nested type ∧ c.Featured (c.held type)) ∨ c.Featured fields := by
  constructor
  · intro featured
    cases featured with
    | own mem role =>
      rcases List.mem_cons.1 mem with rfl | mem
      · exact .inl ⟨_, _, _, role⟩
      · exact .inr (.inr (.own mem role))
    | inside mem role value =>
      rcases List.mem_cons.1 mem with rfl | mem
      · exact .inr (.inl ⟨_, role, value⟩)
      · exact .inr (.inr (.inside mem role value))
  · rintro (⟨attributes, type, override, role⟩ | ⟨type, role, value⟩ | featured)
    · exact .own List.mem_cons_self role
    · exact .inside List.mem_cons_self role value
    · cases featured with
      | own mem role => exact .own (List.mem_cons_of_mem _ mem) role
      | inside mem role value => exact .inside (List.mem_cons_of_mem _ mem) role value

/-- A walk over fields lists leaves if and only if they have features. -/
lemma Walk.featured_iff {scope : Scope} {position : Nat} {fields : List Field} {leaves : List Leaf}
    (walk : c.Walk scope position fields leaves) : c.Featured fields ↔ leaves ≠ [] := by
  induction walk with
  | nil =>
    refine iff_of_false ?_ (· rfl)
    rintro (⟨mem, -⟩ | ⟨mem, -, -⟩) <;> cases mem
  | apart role rest ih =>
    rw [featured_cons_iff, ← ih]
    rcases role with role | ⟨candidate, role⟩ | role <;> simp [role]
  | feature value rest ihValue ih =>
    refine iff_of_true (featured_cons_iff.2 (.inl ⟨_, _, _, rfl⟩)) ?_
    split
    · simp
    · rename_i more
      rw [List.isEmpty_iff] at more
      simp [more]
  | nested value rest ihValue ih =>
    rw [featured_cons_iff, Ne, List.append_eq_nil_iff, List.map_eq_nil_iff, not_and_or, ← Ne, ← Ne, ← ih, ← ihValue]
    simp

lemma leads_cons_iff {l : Link} {links chain : List Link} :
    c.Leads (l :: links) chain ↔ c.Leads [l] chain ∨ c.Leads links chain := by
  constructor
  · intro leads
    cases leads with
    | leaf mem role bare =>
      rcases List.mem_cons.1 mem with rfl | mem
      · exact .inl (.leaf (List.mem_singleton_self _) role bare)
      · exact .inr (.leaf mem role bare)
    | onward mem value rest =>
      rcases List.mem_cons.1 mem with rfl | mem
      · exact .inl (.onward (List.mem_singleton_self _) value rest)
      · exact .inr (.onward mem value rest)
  · rintro (leads | leads)
    · cases leads with
      | leaf mem role bare => exact .leaf (List.mem_cons.2 (.inl (List.mem_singleton.1 mem))) role bare
      | onward mem value rest => exact .onward (List.mem_cons.2 (.inl (List.mem_singleton.1 mem))) value rest
    · cases leads with
      | leaf mem role bare => exact .leaf (List.mem_cons_of_mem _ mem) role bare
      | onward mem value rest => exact .onward (List.mem_cons_of_mem _ mem) value rest

lemma of_mem_linksFrom {position : Nat} {fields : List Field} {l : Link} (mem : l ∈ linksFrom position fields) :
    position ≤ l.position ∧ l.field ∈ fields := by
  induction fields generalizing position with
  | nil => cases mem
  | cons field fields ih =>
    rcases List.mem_cons.1 mem with rfl | mem
    · exact ⟨Nat.le_refl _, List.mem_cons_self⟩
    · obtain ⟨le, held⟩ := ih mem
      exact ⟨Nat.le_of_succ_le le, List.mem_cons_of_mem _ held⟩

/-- Fields that a chain leads down from have features. -/
lemma Leads.featured {links chain : List Link} (leads : c.Leads links chain) :
    ∀ position fields, links = linksFrom position fields → c.Featured fields := by
  induction leads with
  | leaf mem role bare =>
    rintro position fields rfl
    exact .own (of_mem_linksFrom mem).2 role
  | @onward links chain l type mem value rest ih =>
    rintro position fields rfl
    cases role : l.field.role with
    | feature attributes type override => exact .own (of_mem_linksFrom mem).2 role
    | nested type' =>
      rw [role] at value
      cases value
      exact .inside (of_mem_linksFrom mem).2 role (ih 0 _ rfl)
    | label => rw [role] at value; cases value
    | actions candidate => rw [role] at value; cases value
    | skipped => rw [role] at value; cases value

/-- Chains lead from some links to leaves, and these are listed in the order of the chains. -/
structure Flat (c : Catalogue) (scope : Scope) (links : List Link) (chains : List (List Link)) (leaves : List Leaf) :
    Prop where
  leads : ∀ chain, chain ∈ chains ↔ c.Leads links chain
  ordered : chains.Pairwise fun a b => a.map Link.position < b.map Link.position
  ends : List.Forall₂ (Leaf.Ends scope) chains leaves

namespace Flat

/-- What the first field leads to comes before what the later ones lead to. -/
lemma append {scope : Scope} {position : Nat} {field : Field} {fields : List Field} {here later : List (List Link)}
    {hereLeaves laterLeaves : List Leaf} (first : c.Flat scope [⟨position, field⟩] here hereLeaves)
    (rest : c.Flat scope (linksFrom (position + 1) fields) later laterLeaves) :
    c.Flat scope (linksFrom position (field :: fields)) (here ++ later) (hereLeaves ++ laterLeaves) where
  leads := by
    intro chain
    rw [linksFrom, leads_cons_iff, List.mem_append, first.leads, rest.leads]
  ordered := by
    have head {links chain : List Link} (leads : c.Leads links chain) : ∃ l ∈ links, ∃ back, chain = l :: back := by
      cases leads with
      | leaf mem role bare => exact ⟨_, mem, [], rfl⟩
      | onward mem value rest => exact ⟨_, mem, _, rfl⟩
    refine List.pairwise_append.2 ⟨first.ordered, rest.ordered, fun a memA b memB => ?_⟩
    obtain ⟨l, mem, back, rfl⟩ := head ((first.leads a).1 memA)
    obtain ⟨l', mem', back', rfl⟩ := head ((rest.leads b).1 memB)
    cases List.mem_singleton.1 mem
    exact List.Lex.rel (of_mem_linksFrom mem').1
  ends := List.rel_append first.ends rest.ends

/-- A field that holds features leads where these lead. -/
lemma below {scope inner : Scope} {l : Link} {type : ValueType} {chains : List (List Link)} {leaves : List Leaf}
    (value : l.field.role.value? = some type) (flat : c.Flat inner (linksFrom 0 (c.held type)) chains leaves)
    (whole : ∀ attributes override, l.field.role = .feature attributes type override → c.Featured (c.held type))
    (namespaceName : inner.namespaceName = (l.attributes?.bind Attributes.namespaceName).or scope.namespaceName)
    (group : inner.group = (l.attributes?.bind Attributes.group).or scope.group) :
    c.Flat scope [l] (chains.map (l :: ·)) (leaves.map (.below l.member)) where
  leads := by
    intro chain
    rw [List.mem_map]
    constructor
    · rintro ⟨chain, mem, rfl⟩
      exact .onward (List.mem_singleton_self l) value ((flat.leads chain).1 mem)
    · intro leads
      cases leads with
      | leaf mem role bare =>
        cases List.mem_singleton.1 mem
        rw [role] at value
        cases value
        exact absurd (whole _ _ role) bare
      | onward mem value' rest =>
        cases List.mem_singleton.1 mem
        cases value.symm.trans value'
        exact ⟨_, (flat.leads _).2 rest, rfl⟩
  ordered := by
    rw [List.pairwise_map]
    exact flat.ordered.imp fun less => List.Lex.cons less
  ends := by
    rw [List.forall₂_map_left_iff, List.forall₂_map_right_iff]
    exact flat.ends.imp fun chain leaf ends => ends.below namespaceName group

/-- An annotated field whose type has no features leads to itself. -/
lemma leaf {scope : Scope} {l : Link} {attributes : Attributes} {type : ValueType} {override : Option Handle}
    (role : l.field.role = .feature attributes type override) (bare : ¬c.Featured (c.held type)) :
    c.Flat scope [l] [[l]] [⟨[l.member], scope.enter attributes, attributes, type, override⟩] where
  leads := by
    intro chain
    rw [List.mem_singleton]
    constructor
    · rintro rfl
      exact .leaf (List.mem_singleton_self l) role bare
    · intro leads
      cases leads with
      | leaf mem => rw [List.mem_singleton.1 mem]
      | onward mem value rest =>
        cases List.mem_singleton.1 mem
        rw [role] at value
        cases value
        exact absurd (rest.featured 0 _ rfl) bare
  ordered := List.pairwise_singleton _ _
  ends := by
    have said : l.attributes? = some attributes := by
      rw [Link.attributes?, role]
    refine .cons ⟨rfl, ?_, ?_, l, rfl, role⟩ .nil
    · rw [lastDeclared_cons, said]
      exact Option.or_eq_orElse.symm
    · rw [lastDeclared_cons, said]
      exact Option.or_eq_orElse.symm

/-- A field that is no member leads nowhere. -/
lemma nowhere {scope : Scope} {l : Link} (none : l.field.role.value? = none) : c.Flat scope [l] [] [] where
  leads := by
    refine fun chain => iff_of_false List.not_mem_nil fun leads => ?_
    cases leads with
    | leaf mem role bare =>
      cases List.mem_singleton.1 mem
      rw [role] at none
      cases none
    | onward mem value rest =>
      cases List.mem_singleton.1 mem
      rw [value] at none
      cases none
  ordered := .nil
  ends := .nil

end Flat

/-- A walk lists the leaves that chains lead to, in the order of the chains. -/
lemma Walk.flat {scope : Scope} {position : Nat} {fields : List Field} {leaves : List Leaf}
    (walk : c.Walk scope position fields leaves) : ∃ chains, c.Flat scope (linksFrom position fields) chains leaves := by
  -- a field leads to itself, where its value leads, or nowhere; which one it is depends on the leaves of its value
  induction walk with
  | nil =>
    refine ⟨[], fun chain => iff_of_false List.not_mem_nil ?_, .nil, .nil⟩
    rintro (⟨mem, -, -⟩ | ⟨mem, -, -⟩) <;> cases mem
  | @apart scope position field fields leaves role rest ih =>
    obtain ⟨chains, flat⟩ := ih
    have nowhere : c.Flat scope [⟨position, field⟩] [] [] := Flat.nowhere (edge?_of_apart role)
    exact ⟨[] ++ chains, nowhere.append flat⟩
  | @feature scope position path isOptional attributes type override fields inner leaves value rest ihValue ih =>
    obtain ⟨chains, flat⟩ := ihValue
    obtain ⟨later, flatRest⟩ := ih
    let l : Link := ⟨position, ⟨path, isOptional, .feature attributes type override⟩⟩
    have featured := value.featured_iff
    split
    · rename_i none
      rw [List.isEmpty_iff] at none
      have leaf : c.Flat scope [l] _ _ := Flat.leaf rfl fun some => featured.1 some none
      exact ⟨_, leaf.append flatRest⟩
    · rename_i some
      rw [List.isEmpty_iff] at some
      have below : c.Flat scope [l] _ _ :=
        flat.below rfl (fun _ _ _ => featured.2 some) Option.or_eq_orElse.symm Option.or_eq_orElse.symm
      exact ⟨_, below.append flatRest⟩
  | @nested scope position path isOptional type fields inner leaves value rest ihValue ih =>
    obtain ⟨chains, flat⟩ := ihValue
    obtain ⟨later, flatRest⟩ := ih
    let l : Link := ⟨position, ⟨path, isOptional, .nested type⟩⟩
    have whole : ∀ attributes override, l.field.role = .feature attributes type override → c.Featured (c.held type) := by
      intro attributes override role
      cases role
    have below : c.Flat scope [l] _ _ := flat.below rfl whole rfl rfl
    exact ⟨_, below.append flatRest⟩

/-- A type has features exactly if extraction lists some. -/
theorem extract_ne_nil_iff {scope : Scope} {id : Nat} {ds : List Descriptor} (ok : c.extract scope id = .ok ds) :
    ds ≠ [] ↔ c.Featured (c.fields id) := by
  obtain ⟨leaves, walk, rfl⟩ := extract_eq_walk ok
  rw [walk.featured_iff, Ne, List.map_eq_nil_iff]

/-- Where no record type reaches itself, extraction succeeds. It lists one descriptor for every chain that leads to a
leaf, in the order of declaration, depth first, and each descriptor says what its chain comes to. -/
theorem extract_describes (scope : Scope) {id : Nat} (acyclic : c.Acyclic id) :
    ∃ chains ds, c.extract scope id = .ok ds ∧ (∀ chain, chain ∈ chains ↔ c.Leads (linksFrom 0 (c.fields id)) chain) ∧
      (chains.Pairwise fun a b => a.map Link.position < b.map Link.position) ∧
      List.Forall₂ (Descriptor.Describes scope) chains ds := by
  have succeeds : ∃ ds, c.extract scope id = .ok ds := by
    cases result : c.extract scope id with
    | ok ds => exact ⟨ds, rfl⟩
    | error failure =>
      have failed : ∃ failure, c.extract scope id = .error failure := ⟨failure, result⟩
      rw [extract_fails_iff] at failed
      obtain ⟨id', reached, cycle⟩ := failed
      exact absurd cycle (acyclic id' reached)
  obtain ⟨ds, ok⟩ := succeeds
  obtain ⟨leaves, walk, rfl⟩ := extract_eq_walk ok
  obtain ⟨chains, flat⟩ := walk.flat
  refine ⟨chains, _, ok, flat.leads, flat.ordered, ?_⟩
  rw [List.forall₂_map_right_iff]
  exact flat.ends.imp fun chain leaf ends => ends.describes

end Catalogue

namespace Profile

def number : ValueType := ⟨"i64", .scalar .numeric⟩
def text : ValueType := ⟨"String", .scalar .displayed⟩
def address : ValueType := ⟨"Address", .record 1⟩

/-- A profile with two addresses: of the first one another group is said, and it may be missing. The note is no feature. -/
def catalogue : Catalogue :=
  [⟨"Profile", [⟨"age", false, .feature { namespaceName := some "p", group := some 'x' } number none⟩,
      ⟨"home", true, .feature { namespaceName := some "h", group := some 'y' } address none⟩,
      ⟨"work", false, .nested address⟩, ⟨"note", false, .nested text⟩]⟩,
    ⟨"Address", [⟨"city", false, .feature { namespaceName := some "addr" } text none⟩,
      ⟨"zip", true, .feature { order := some 3 } number none⟩]⟩]

def age : Descriptor := .ofFeature ⟨0, "age", false⟩ {} ⟨some "p", some 'x'⟩ number none
def city (group : Option Char) : Descriptor := .ofFeature ⟨0, "city", false⟩ {} ⟨some "addr", group⟩ text none
def zip (scope : Scope) : Descriptor := .ofFeature ⟨1, "zip", true⟩ { order := some 3 } scope number none

/-- The features of a profile, in the order of declaration. -/
def descriptors : List Descriptor :=
  [age, (city (some 'y')).below ⟨1, "home", true⟩, (zip ⟨some "h", some 'y'⟩).below ⟨1, "home", true⟩,
    (city none).below ⟨2, "work", false⟩, (zip .root).below ⟨2, "work", false⟩]

lemma extract_eq : catalogue.extract .root 0 = .ok descriptors := by
  simp [Catalogue.extract, Catalogue.extractFields, Catalogue.fields, catalogue, Role.asMember?, Except.bind, Except.map,
    List.range, List.range.loop, descriptors, age, city, zip, number, text, address, Scope.enter, Scope.root,
    Descriptor.ofFeature]

end Profile

open Profile in
/-- A profile has five features. The zip of the first address has the namespace and the group of the address, and two guards;
that of the second one has neither, and one guard. -/
theorem Catalogue.extract_describes_profile :
    ∃ chains ds, catalogue.extract .root 0 = .ok ds ∧ List.Forall₂ (Descriptor.Describes .root) chains ds ∧
      chains.map dotted = ["age", "home.city", "home.zip", "work.city", "work.zip"] ∧
      (ds.map fun d => (d.namespaceName, d.group)) =
        [(some "p", some 'x'), (some "addr", some 'y'), (some "h", some 'y'), (some "addr", none), (none, none)] ∧
      (ds.map fun d => d.guards.map Guard.path) = [[], ["home"], ["home", "home.zip"], [], ["work.zip"]] := by
  have acyclic : catalogue.Acyclic 0 := fun id' => not_cycle_of_extract extract_eq
  obtain ⟨chains, ds, ok, -, -, describes⟩ := extract_describes .root acyclic
  cases ok.symm.trans extract_eq
  refine ⟨chains, descriptors, ok, describes, ?_, rfl, rfl⟩
  have paths : chains.map dotted = descriptors.map Descriptor.path := by
    rw [← List.forall₂_eq_eq_eq, List.forall₂_map_left_iff, List.forall₂_map_right_iff]
    exact describes.imp fun chain d describes => describes.path.symm
  rw [paths]
  rfl

end FeatureLines
