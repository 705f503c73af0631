import Mathlib.Data.List.Nodup
import FeatureLines.Proofs.Schema.Flattening
import FeatureLines.Proofs.Schema.Layout
import FeatureLines.Proofs.Schema.Typing
import FeatureLines.Proofs.Serializer.Exclusive
import FeatureLines.Proofs.Serializer.Rows

/-!
# Marshallers of members

A member may be given a marshaller of its own (`Catalogue.Overrides`). Binding a feature looks at this marshaller first, but
only features are bound, and whether a member is one is settled before: a member whose type has features stands for these.
So a member keeps its marshaller exactly if its type has no features (`LinePlan.Honours`), whatever else is said of it or
registered for its type.

Main statement: `Plan.honours_overrides`. A member that holds features is not written by its own marshaller
(`Plan.not_honours_all`).
-/

namespace FeatureLines

/-- Where a chain of fields leads. -/
def stepsAlong (chain : List Link) : List Nat := chain.map Link.position

/-- A chain of fields leads from some fields down to a member, of a type, that is given a marshaller of its own. -/
inductive Catalogue.Overrides (c : Catalogue) (type : ValueType) (h : Handle) : List Link → List Link → Prop
  | own {links : List Link} {l : Link} {attributes : Attributes} (mem : l ∈ links)
      (role : l.field.role = .feature attributes type (some h)) : Overrides c type h links [l]
  | onward {links chain : List Link} {l : Link} {held : ValueType} (mem : l ∈ links)
      (value : l.field.role.value? = some held) (rest : Overrides c type h (linksFrom 0 (c.held held)) chain) :
      Overrides c type h links (l :: chain)

/-- A step writes what a chain of fields leads to, with the marshaller that the last field resolves to. -/
structure Step.IsFor (type : String) (r : Registry) (chain : List Link) (s : Step) : Prop where
  place : s.descriptor.steps = stepsAlong chain
  own : ∃ l attributes, chain.getLast? = some l ∧
    l.field.role = .feature attributes s.descriptor.type s.descriptor.override
  resolved : resolve type r s.descriptor = .ok (s.handle, s.resolution)

namespace LinePlan

/-- The steps for what lies at a place or in the value there. -/
def stepsIn (p : LinePlan) (place : List Nat) : List Step := p.steps.filter fun s => place <+: s.descriptor.steps

/-- What a plan makes of the marshallers that members are given. -/
structure Honours (c : Catalogue) (r : Registry) (id : Nat) (p : LinePlan) : Prop where
  /-- A member whose type has no features is bound to its own marshaller. Nothing else is written at the member, which is
  written whenever the way to it is there. -/
  kept : ∀ type h chain, c.Overrides type h (linksFrom 0 (c.fields id)) chain → ¬c.Featured (c.held type) →
    ∃ s, p.stepsIn (stepsAlong chain) = [s] ∧ s.IsFor (c.name id) r chain ∧ s.handle = h ∧ s.resolution = .override ∧
      ∀ root space context,
        (∀ cell, Record.Reaches root chain cell →
          s.emit space root context = context.run (h.write space s.descriptor.feature cell)) ∧
        ((¬∃ cell, Record.Reaches root chain cell) → s.emit space root context = context)
  /-- A member whose type has features is written as all of these, each with the marshaller that its own field resolves to,
  and as nothing else. -/
  expanded : ∀ type h chain, c.Overrides type h (linksFrom 0 (c.fields id)) chain → c.Featured (c.held type) →
    (∃ back, c.Leads (linksFrom 0 (c.held type)) back) ∧
      (∀ back, c.Leads (linksFrom 0 (c.held type)) back →
        ∃ s ∈ p.stepsIn (stepsAlong chain), s.IsFor (c.name id) r (chain ++ back)) ∧
      ∀ s ∈ p.stepsIn (stepsAlong chain), ∃ back, c.Leads (linksFrom 0 (c.held type)) back ∧
        s.IsFor (c.name id) r (chain ++ back)

end LinePlan

/-! ## Chains to members with marshallers -/

lemma Leaf.steps_map_member (chain : List Link) : steps (chain.map Link.member) = stepsAlong chain := by
  unfold steps stepsAlong
  rw [List.map_map]
  rfl

/-- Fields of a record type lie at different places. -/
lemma eq_of_mem_linksFrom {position : Nat} {fields : List Field} {l l' : Link} (mem : l ∈ linksFrom position fields)
    (mem' : l' ∈ linksFrom position fields) (same : l.position = l'.position) : l = l' := by
  induction fields generalizing position with
  | nil => cases mem
  | cons field fields ih =>
    rcases List.mem_cons.1 mem with rfl | later <;> rcases List.mem_cons.1 mem' with rfl | later'
    · rfl
    · exact absurd same (Nat.ne_of_lt (Catalogue.of_mem_linksFrom later').1)
    · exact absurd same (Nat.ne_of_gt (Catalogue.of_mem_linksFrom later).1)
    · exact ih later later'

namespace Catalogue

variable {c : Catalogue} {type : ValueType} {h : Handle} {scope : Scope} {position : Nat} {fields : List Field}
  {links chain back : List Link} {leaves : List Leaf}

namespace Overrides

/-- A member whose type has no features is a leaf. -/
lemma leads (overrides : c.Overrides type h links chain) (bare : ¬c.Featured (c.held type)) : c.Leads links chain := by
  induction overrides with
  | own mem role => exact .leaf mem role bare
  | onward mem value rest ih => exact .onward mem value ih

/-- The last field of the chain is the one with the marshaller. -/
lemma getLast? (overrides : c.Overrides type h links chain) :
    ∃ l attributes, chain.getLast? = some l ∧ l.field.role = .feature attributes type (some h) := by
  induction overrides with
  | own mem role => exact ⟨_, _, rfl, role⟩
  | onward mem value rest ih =>
    obtain ⟨last, attributes, found, role⟩ := ih
    refine ⟨last, attributes, ?_, role⟩
    rw [List.getLast?_cons, found]
    rfl

/-- A leaf that lies at the member or in its value is the member, whose type has no features then, or a leaf of the type of
the member. -/
lemma split {other : List Link} (overrides : c.Overrides type h links chain) (leads : c.Leads links other)
    (eq : links = linksFrom position fields) (front : stepsAlong chain <+: stepsAlong other) :
    ∃ back, other = chain ++ back ∧
      ((back = [] ∧ ¬c.Featured (c.held type)) ∨ c.Leads (linksFrom 0 (c.held type)) back) := by
  induction overrides generalizing position fields other with
  | own mem role =>
    subst eq
    cases leads with
    | leaf mem' role' bare =>
      cases eq_of_mem_linksFrom mem mem' (List.cons_prefix_cons.1 front).1
      cases role.symm.trans role'
      exact ⟨[], rfl, .inl ⟨rfl, bare⟩⟩
    | onward mem' value' rest' =>
      cases eq_of_mem_linksFrom mem mem' (List.cons_prefix_cons.1 front).1
      rw [role] at value'
      cases value'
      exact ⟨_, rfl, .inr rest'⟩
  | onward mem value rest ih =>
    subst eq
    cases leads with
    | leaf mem' role' bare =>
      -- the chain goes on, and so would the leaf
      have ends := List.prefix_nil.1 (List.cons_prefix_cons.1 front).2
      cases rest <;> cases ends
    | onward mem' value' rest' =>
      obtain ⟨same, further⟩ := List.cons_prefix_cons.1 front
      cases eq_of_mem_linksFrom mem mem' same
      cases value.symm.trans value'
      obtain ⟨back, rfl, found⟩ := ih rest' rfl further
      exact ⟨back, rfl, found⟩

/-- A leaf of the type of the member is a leaf in its value. -/
lemma append (overrides : c.Overrides type h links chain) (leads : c.Leads (linksFrom 0 (c.held type)) back) :
    c.Leads links (chain ++ back) := by
  induction overrides with
  | own mem role =>
    refine .onward mem ?_ leads
    rw [role]
    rfl
  | onward mem value rest ih => exact .onward mem value ih

end Overrides

/-- The type of a member is walked where the member is. -/
lemma Walk.value_of_mem (walk : c.Walk scope position fields leaves) {l : Link} (mem : l ∈ linksFrom position fields)
    {held : ValueType} (value : l.field.role.value? = some held) :
    ∃ inner leaves, c.Walk inner 0 (c.held held) leaves := by
  induction walk with
  | nil => cases mem
  | apart role rest ih =>
    rcases List.mem_cons.1 mem with rfl | later
    · rw [edge?_of_apart role] at value
      cases value
    · exact ih later
  | feature here rest _ ih =>
    rcases List.mem_cons.1 mem with rfl | later
    · cases value
      exact ⟨_, _, here⟩
    · exact ih later
  | nested here rest _ ih =>
    rcases List.mem_cons.1 mem with rfl | later
    · cases value
      exact ⟨_, _, here⟩
    · exact ih later

/-- Fields that are walked have features if and only if a chain leads down from them. -/
lemma Walk.featured_iff_leads (walk : c.Walk scope position fields leaves) :
    c.Featured fields ↔ ∃ chain, c.Leads (linksFrom position fields) chain := by
  obtain ⟨chains, flat⟩ := walk.flat
  rw [walk.featured_iff]
  constructor
  · intro some
    obtain ⟨leaf, mem⟩ := List.exists_mem_of_ne_nil leaves some
    obtain ⟨chain, listed, -⟩ := flat.ends.exists_of_mem_right mem
    exact ⟨chain, (flat.leads chain).1 listed⟩
  · rintro ⟨chain, leads⟩ rfl
    obtain ⟨leaf, mem, -⟩ := flat.ends.exists_of_mem_left ((flat.leads chain).2 leads)
    cases mem

/-- The type of a member with a marshaller of its own is walked as well. -/
lemma Walk.overrides (walk : c.Walk scope position fields leaves)
    (overrides : c.Overrides type h (linksFrom position fields) chain) :
    ∃ inner leaves, c.Walk inner 0 (c.held type) leaves := by
  generalize eq : linksFrom position fields = links at overrides
  induction overrides generalizing scope position fields leaves with
  | own mem role =>
    subst eq
    refine walk.value_of_mem mem ?_
    rw [role]
    rfl
  | onward mem value rest ih =>
    subst eq
    obtain ⟨inner, leaves, walk⟩ := walk.value_of_mem mem value
    exact ih walk rfl

end Catalogue

/-! ## Steps and chains -/

/-- A step for a leaf is for the chain that comes to it. -/
lemma Step.Realizes.isFor {type : String} {r : Registry} {scope : Scope} {chain : List Link} {leaf : Leaf} {s : Step}
    (bound : s.Realizes type r leaf) (ends : Leaf.Ends scope chain leaf) : s.IsFor type r chain where
  place := by
    rw [bound.descriptor, ← Leaf.steps_map_member, ← ends.members]
    rfl
  own := by
    obtain ⟨l, last, role⟩ := ends.own
    rw [bound.descriptor]
    exact ⟨l, leaf.attributes, last, role⟩
  resolved := bound.descriptor ▸ bound.resolved

/-- A step for a member with a marshaller of its own is bound to this marshaller. -/
lemma Step.IsFor.of_overrides {c : Catalogue} {name : String} {r : Registry} {type : ValueType} {h : Handle}
    {links chain : List Link} {s : Step} (isFor : s.IsFor name r chain) (overrides : c.Overrides type h links chain) :
    s.handle = h ∧ s.resolution = .override := by
  obtain ⟨l, attributes, last, role⟩ := isFor.own
  obtain ⟨l', attributes', last', role'⟩ := overrides.getLast?
  cases last.symm.trans last'
  have given : s.descriptor.override = some h := (Role.feature.inj (role.symm.trans role')).2.2
  have resolved := isFor.resolved
  rw [resolve, given] at resolved
  obtain ⟨own, source⟩ := Prod.mk.inj (Except.ok.inj resolved)
  exact ⟨own.symm, source.symm⟩

namespace LinePlan

variable {c : Catalogue} {r : Registry} {id : Nat} {p : LinePlan} {leaves : List Leaf}

/-- The steps of a plan write the leaves, in the order of the layout. -/
lemma Realizes.steps (realizes : p.Realizes c r id leaves) :
    List.Forall₂ (Step.Realizes (c.name id) r) (Leaf.layout leaves) p.steps := by
  have blocks := realizes.blocks
  unfold LinePlan.steps Leaf.layout
  generalize p.blocks = bound at blocks ⊢
  generalize Leaf.groups leaves = groups at blocks ⊢
  induction blocks with
  | nil => exact .nil
  | cons first _ ih => exact List.rel_append first.steps ih

/-- A step of a plan is for a chain that leads to a leaf. -/
lemma Realizes.exists_chain (realizes : p.Realizes c r id leaves) {s : Step} (mem : s ∈ p.steps) :
    ∃ chain, c.Leads (linksFrom 0 (c.fields id)) chain ∧ s.IsFor (c.name id) r chain := by
  obtain ⟨chains, flat⟩ := realizes.walk.flat
  obtain ⟨leaf, listed, bound⟩ := realizes.steps.exists_of_mem_right mem
  obtain ⟨chain, found, ends⟩ := flat.ends.exists_of_mem_right ((Leaf.layout_perm leaves).mem_iff.1 listed)
  exact ⟨chain, (flat.leads chain).1 found, bound.isFor ends⟩

/-- What a chain leads to has a step, which takes the value there. -/
lemma Realizes.exists_step (realizes : p.Realizes c r id leaves) {chain : List Link}
    (leads : c.Leads (linksFrom 0 (c.fields id)) chain) :
    ∃ s ∈ p.steps, s.IsFor (c.name id) r chain ∧ ∀ root, s.descriptor.value? root = root.follow? (stepsAlong chain) := by
  obtain ⟨chains, flat⟩ := realizes.walk.flat
  obtain ⟨leaf, mem, ends⟩ := flat.ends.exists_of_mem_left ((flat.leads chain).2 leads)
  obtain ⟨s, listed, bound⟩ := realizes.steps.exists_of_mem_left ((Leaf.layout_perm leaves).mem_iff.2 mem)
  refine ⟨s, listed, bound.isFor ends, fun root => ?_⟩
  rw [bound.descriptor, leaf.descriptor_value?, Leaf.value?, ends.members, Leaf.steps_map_member]

/-- No two steps of a plan are for one place. -/
lemma Realizes.nodup_places (realizes : p.Realizes c r id leaves) : (p.steps.map fun s => s.descriptor.steps).Nodup := by
  have same : (Leaf.layout leaves).map (fun leaf => Leaf.steps leaf.chain) = p.steps.map fun s => s.descriptor.steps := by
    rw [← List.forall₂_eq_eq_eq, List.forall₂_map_left_iff, List.forall₂_map_right_iff]
    refine realizes.steps.imp fun leaf s bound => ?_
    rw [bound.descriptor]
    rfl
  rw [← same]
  exact ((Leaf.layout_perm leaves).map _).nodup_iff.2 realizes.walk.nodup_steps

section

variable {type : ValueType} {h : Handle} {chain : List Link} (realizes : p.Realizes c r id leaves)
  (overrides : c.Overrides type h (linksFrom 0 (c.fields id)) chain)

include realizes overrides

/-- What is written at a member or in its value is the member, or a leaf of its type. -/
lemma Realizes.of_mem_stepsIn {s : Step} (mem : s ∈ p.stepsIn (stepsAlong chain)) :
    s ∈ p.steps ∧ ∃ back, s.IsFor (c.name id) r (chain ++ back) ∧
      ((back = [] ∧ ¬c.Featured (c.held type)) ∨ c.Leads (linksFrom 0 (c.held type)) back) := by
  obtain ⟨listed, front⟩ := List.mem_filter.1 mem
  obtain ⟨other, leads, isFor⟩ := realizes.exists_chain listed
  have front : stepsAlong chain <+: stepsAlong other := isFor.place ▸ of_decide_eq_true front
  obtain ⟨back, rfl, found⟩ := overrides.split leads rfl front
  exact ⟨listed, back, isFor, found⟩

/-- A member whose type has no features is one step. -/
lemma Realizes.stepsIn_of_bare (bare : ¬c.Featured (c.held type)) :
    ∃ s, p.stepsIn (stepsAlong chain) = [s] ∧ s.IsFor (c.name id) r chain ∧
      ∀ root, s.descriptor.value? root = root.follow? (stepsAlong chain) := by
  obtain ⟨s, listed, isFor, value⟩ := realizes.exists_step (overrides.leads bare)
  refine ⟨s, ?_, isFor, value⟩
  have here : s ∈ p.stepsIn (stepsAlong chain) :=
    List.mem_filter.2 ⟨listed, decide_eq_true (isFor.place ▸ List.prefix_refl _)⟩
  have alone : ∀ s' ∈ p.stepsIn (stepsAlong chain), s' = s := by
    intro s' mem
    obtain ⟨listed', back, isFor', ⟨rfl, -⟩ | leads⟩ := realizes.of_mem_stepsIn overrides mem
    · rw [List.append_nil] at isFor'
      exact List.inj_on_of_nodup_map realizes.nodup_places listed' listed (isFor'.place.trans isFor.place.symm)
    · exact absurd (leads.featured 0 _ rfl) bare
  have distinct : (p.stepsIn (stepsAlong chain)).Nodup := (List.Nodup.of_map _ realizes.nodup_places).filter _
  rw [← List.perm_singleton, List.perm_ext_iff_of_nodup distinct (List.nodup_singleton s)]
  intro s'
  rw [List.mem_singleton]
  exact ⟨alone s', fun same => same ▸ here⟩

end

/-- Compiling keeps the marshallers of members whose types have no features, and opens the other members. -/
theorem compile_honours (ok : LinePlan.compile c r id = .ok p) : p.Honours c r id := by
  obtain ⟨leaves, realizes⟩ := compile_realizes ok
  constructor
  · intro type h chain overrides bare
    obtain ⟨s, one, isFor, value⟩ := realizes.stepsIn_of_bare overrides bare
    obtain ⟨own, source⟩ := isFor.of_overrides overrides
    refine ⟨s, one, isFor, own, source, fun root space context => ⟨fun cell reaches => ?_, fun missing => ?_⟩⟩
    · rw [Step.emit, value, ← Leaf.steps_map_member, Record.reaches_iff.1 reaches, own]
    · cases found : root.follow? (stepsAlong chain) with
      | none => rw [Step.emit, value, found]
      | some cell =>
        rw [← Leaf.steps_map_member] at found
        exact absurd ⟨cell, Record.reaches_iff.2 found⟩ missing
  · intro type h chain overrides featured
    refine ⟨?_, fun back leads => ?_, fun s mem => ?_⟩
    · obtain ⟨inner, innerLeaves, walk⟩ := realizes.walk.overrides overrides
      exact walk.featured_iff_leads.1 featured
    · obtain ⟨s, listed, isFor, -⟩ := realizes.exists_step (overrides.append leads)
      have front : stepsAlong chain <+: s.descriptor.steps := by
        rw [isFor.place, stepsAlong, stepsAlong, List.map_append]
        exact List.prefix_append _ _
      exact ⟨s, List.mem_filter.2 ⟨listed, decide_eq_true front⟩, isFor⟩
    · obtain ⟨-, back, isFor, ⟨-, bare⟩ | leads⟩ := realizes.of_mem_stepsIn overrides mem
      · exact absurd featured bare
      · exact ⟨back, leads, isFor⟩

end LinePlan

/-- Every line of a record and of its candidates is written along a plan that keeps the marshallers of members whose types
have no features, whatever is registered for these types, and that opens the other members. -/
theorem Plan.honours_overrides {c : Catalogue} {r : Registry} {kind : OutputKind} {id : Nat} {p : Plan}
    (compiled : Plan.compile c r kind id = .ok p) :
    p.line.Honours c r id ∧
      (∀ actions, p.actions = some actions →
        ∃ member candidate, c.actions id = [(member, candidate)] ∧ actions.candidate.Honours c r candidate) ∧
      ∀ root target, List.Forall₂ (fun line row => row.root = line.2 ∧ row.plan.Honours c r line.1)
        (c.lines id root) (p.rows root target) := by
  obtain ⟨-, line, candidates⟩ := compile_spec compiled
  refine ⟨LinePlan.compile_honours line, fun actions some => ?_, fun root target => ?_⟩
  · rcases candidates with ⟨-, none⟩ | ⟨member, candidate, held, one, -, done, -, inner, -⟩
    · cases none.symm.trans some
    · cases done.symm.trans some
      exact ⟨member, candidate, one, LinePlan.compile_honours inner⟩
  · exact (forall₂_rows compiled root target).imp fun line row ⟨compiled, same⟩ =>
      ⟨same, LinePlan.compile_honours compiled⟩

/-! ## An example -/

namespace Parcel

def box : ValueType := ⟨"Box", .record 1⟩
def stamp : ValueType := ⟨"Stamp", .record 2⟩
def number : ValueType := ⟨"u8", .scalar .numeric⟩

/-- A marshaller that writes the name of the feature. -/
def namer (name : String) (type : ValueType) : Handle :=
  ⟨name, some type, fun _ feature _ => .indicator feature.name .done⟩

def boxed : Field := ⟨"box", false, .feature {} box (some (namer "Packer" box))⟩
def stamped : Field := ⟨"stamp", true, .feature { enumerize := true } stamp (some (namer "Franker" stamp))⟩

/-- The box and the stamp of a parcel have marshallers of their own. A box has a size, and of a stamp nothing is known. -/
def catalogue : Catalogue :=
  [⟨"Parcel", [boxed, stamped]⟩, ⟨"Box", [⟨"size", false, .feature {} number none⟩]⟩,
    ⟨"Stamp", [⟨"value", false, .skipped⟩]⟩]

/-- A registry with another marshaller for stamps. -/
def registry : Registry := Registry.empty.register stamp ⟨namer "Printer" stamp, 0, false⟩

def size : Descriptor := (Descriptor.ofFeature ⟨0, "size", false⟩ {} .root number none).below ⟨0, "box", false⟩
def mark : Descriptor := .ofFeature ⟨1, "stamp", true⟩ { enumerize := true } .root stamp (some (namer "Franker" stamp))

def plan : Plan :=
  ⟨.native,
    ⟨"Parcel",
      [⟨.make none none, false,
        [⟨size, ⟨"featwire::marshal::NumericMarshaller", some number, fun _ => Handle.writeNumeric⟩, .builtIn⟩,
          ⟨mark, namer "Franker" stamp, .override⟩]⟩],
      none⟩,
    none⟩

lemma extract_eq : catalogue.extract .root 0 = .ok [size, mark] := by
  simp [Catalogue.extract, Catalogue.extractFields, Catalogue.fields, catalogue, boxed, stamped, Role.asMember?, Except.bind,
    Except.map, List.range, List.range.loop, size, mark, number, box, stamp, Scope.enter, Scope.root, Descriptor.ofFeature]

lemma groupFeatures_eq : groupFeatures "Parcel" [size, mark] = .ok [⟨⟨none, none, false⟩, [size, mark]⟩] := by
  simp [groupFeatures, Group.collect, Group.add, Descriptor.key, Group.problem?, Group.sorted, List.mergeSort, size, mark,
    Descriptor.ofFeature, Descriptor.below, Descriptor.isDense, Descriptor.shape, number, stamp, Form.shape, Scope.root]

lemma compile_eq : Plan.compile catalogue registry .native 0 = .ok plan := by
  have line : LinePlan.compile catalogue registry 0 = .ok plan.line :=
    Except.bind_eq_ok.2 ⟨_, extract_eq, Except.bind_eq_ok.2 ⟨_, groupFeatures_eq, rfl⟩⟩
  exact Except.bind_eq_ok.2 ⟨_, line, rfl⟩

lemma overrides_box : catalogue.Overrides box (namer "Packer" box) (linksFrom 0 (catalogue.fields 0)) [⟨0, boxed⟩] :=
  .own List.mem_cons_self rfl

lemma overrides_stamp :
    catalogue.Overrides stamp (namer "Franker" stamp) (linksFrom 0 (catalogue.fields 0)) [⟨1, stamped⟩] :=
  .own (List.mem_cons_of_mem _ List.mem_cons_self) rfl

lemma not_featured_stamp : ¬catalogue.Featured (catalogue.held stamp) := by
  intro featured
  cases featured with
  | own mem role =>
    cases List.mem_singleton.1 mem
    cases role
  | inside mem role value =>
    cases List.mem_singleton.1 mem
    cases role

end Parcel

/-- The stamp of a parcel keeps its marshaller, although there is another one for stamps. -/
theorem Plan.honours_overrides_parcel :
    ∃ s, Parcel.plan.line.stepsIn [1] = [s] ∧ s.handle = Parcel.namer "Franker" Parcel.stamp ∧ s.resolution = .override := by
  obtain ⟨line, -, -⟩ := honours_overrides Parcel.compile_eq
  obtain ⟨s, one, -, own, source, -⟩ := line.kept _ _ _ Parcel.overrides_stamp Parcel.not_featured_stamp
  exact ⟨s, one, own, source⟩

/-- Not every marshaller of a member is bound to its member: the box of a parcel is written as its size, with the built-in
marshaller for numbers. -/
theorem Plan.not_honours_all :
    ¬∀ (c : Catalogue) (r : Registry) (kind : OutputKind) (id : Nat) (p : Plan), Plan.compile c r kind id = .ok p →
      ∀ type h chain, c.Overrides type h (linksFrom 0 (c.fields id)) chain →
        ∃ s ∈ p.line.steps, s.descriptor.steps = stepsAlong chain ∧ s.handle = h ∧ s.resolution = .override := by
  intro all
  obtain ⟨s, mem, place, -⟩ := all _ _ _ _ _ Parcel.compile_eq _ _ _ Parcel.overrides_box
  have steps : s.descriptor.steps ∈ Parcel.plan.line.steps.map fun s => s.descriptor.steps := List.mem_map_of_mem mem
  rw [place] at steps
  exact absurd steps (by decide)

end FeatureLines
