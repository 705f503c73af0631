import Mathlib.Data.List.Nodup
import FeatureLines.Proofs.Serializer.Lines

/-!
# Exclusive namespaces

Features are told apart by the namespace and the group that they are declared in, and a dense feature has the two to itself
(`LinePlan.compile_separates`). A line has the full name only, group and name as one escaped text. Full names are pairwise
distinct exactly if no two pairs are written alike (`LinePlan.Separates.nodup_wireNames_iff`); then a line holds every
namespace at most once.

Main statement: `Plan.exclusive_iff`.
-/

namespace FeatureLines

/-- The namespace that the features of a scope are written in. -/
def Scope.space (scope : Scope) : Namespace := .make scope.namespaceName scope.group

/-- The scope that a feature is declared in. -/
def Descriptor.scope (d : Descriptor) : Scope := ⟨d.namespaceName, d.group⟩

namespace LinePlan

def steps (p : LinePlan) : List Step := p.blocks.flatMap Block.steps

/-- The full names of the namespaces of a plan. -/
def wireNames (p : LinePlan) : List String := p.blocks.map fun b => b.runtime.fullName

/-- The blocks of a plan are for the scopes of its features, each for one, and dense features have theirs to themselves. -/
structure Separates (p : LinePlan) : Prop where
  filled : ∀ b ∈ p.blocks, b.steps ≠ []
  placed : ∀ b ∈ p.blocks, ∀ s ∈ b.steps, s.descriptor.scope.space = b.runtime ∧ s.descriptor.isDense = b.dense
  together : ∀ b ∈ p.blocks, ∀ s ∈ b.steps, ∀ s' ∈ b.steps, s.descriptor.scope = s'.descriptor.scope
  apart : p.blocks.Pairwise fun b b' => ∀ s ∈ b.steps, ∀ s' ∈ b'.steps, s.descriptor.scope ≠ s'.descriptor.scope
  alone : ∀ b ∈ p.blocks, b.dense = true → b.steps.length = 1

/-- Features that are written in namespaces of one name are declared in one scope. -/
def TellsApart (p : LinePlan) : Prop :=
  ∀ s ∈ p.steps, ∀ s' ∈ p.steps, s.descriptor.scope.space.fullName = s'.descriptor.scope.space.fullName →
    s.descriptor.scope = s'.descriptor.scope

end LinePlan

/-! ## What compiling separates -/

/-- Keys of one namespace and one group differ in being dense if at all. -/
lemma GroupKey.eq_or_mixed (k k' : GroupKey) (name : k.namespaceName = k'.namespaceName) (group : k.group = k'.group) :
    k = k' ∨ (k.dense = true ∧ k' = { k with dense := false }) ∨ (k'.dense = true ∧ k = { k' with dense := false }) := by
  obtain ⟨_, _, dense⟩ := k
  obtain ⟨_, _, dense'⟩ := k'
  cases name
  cases group
  cases dense <;> cases dense' <;> simp

/-- The features of two groups differ in their scopes. -/
lemma Group.Proper.scopes {gs : List Group} (h : Proper gs) :
    gs.Pairwise fun g g' => ∀ d ∈ g.features, ∀ d' ∈ g'.features, d.scope ≠ d'.scope := by
  refine (List.pairwise_map.1 h.keys).imp_of_mem fun {g g'} mem mem' other d of d' of' same => ?_
  obtain ⟨name, group⟩ := Scope.mk.inj same
  have key := h.own g mem d of
  have key' := h.own g' mem' d' of'
  rcases GroupKey.eq_or_mixed d.key d'.key name group with same | ⟨dense, mixed⟩ | ⟨dense, mixed⟩
  · exact other (key.symm.trans (same.trans key'))
  · rw [key] at dense mixed
    exact h.unmixed g mem dense g' mem' (key'.symm.trans mixed)
  · rw [key'] at dense mixed
    exact h.unmixed g' mem' dense g mem (key.symm.trans mixed)

/-- A block has the features of its group. -/
lemma Block.ofGroup_spec {type : String} {r : Registry} {g : Group} {b : Block} (ok : Block.ofGroup type r g = .ok b) :
    b.runtime = g.runtime ∧ b.dense = g.key.dense ∧ b.steps.map Step.descriptor = g.features := by
  obtain ⟨steps, bound, done⟩ := Except.bind_eq_ok.1 ok
  cases done
  have each : List.Forall₂ (fun d s => d = Step.descriptor s) g.features steps := by
    refine (Except.mapM_eq_ok.1 bound).imp fun d step ok => ?_
    obtain ⟨⟨handle, resolution⟩, -, done⟩ := Except.bind_eq_ok.1 ok
    cases done
    rfl
  exact ⟨rfl, rfl, (List.forall₂_eq_eq_eq ▸ List.forall₂_map_right_iff.2 each : g.features = _).symm⟩

namespace LinePlan

variable {c : Catalogue} {r : Registry} {id : Nat} {p : LinePlan}

/-- A plan that compiles keeps the scopes of its features apart. -/
theorem compile_separates (ok : LinePlan.compile c r id = .ok p) : p.Separates := by
  obtain ⟨ds, -, ok⟩ := Except.bind_eq_ok.1 ok
  obtain ⟨gs, grouped, bindings⟩ := Except.bind_eq_ok.1 ok
  obtain ⟨blocks, bound, labelled⟩ := Except.bind_eq_ok.1 bindings
  have proper := groupFeatures_proper grouped
  have same : p.blocks = blocks := by
    split at labelled
    · cases labelled
      rfl
    · cases labelled
      rfl
    · cases labelled
  have each := (Except.mapM_eq_ok.1 bound).imp fun g b => Block.ofGroup_spec (g := g) (b := b)
  rw [← same] at each
  have feature {g : Group} {b : Block} (steps : b.steps.map Step.descriptor = g.features) {s : Step} (mem : s ∈ b.steps) :
      s.descriptor ∈ g.features := steps ▸ List.mem_map_of_mem mem
  refine ⟨fun b mem none => ?_, fun b mem s of => ?_, fun b mem s of s' of' => ?_, ?_, fun b mem dense => ?_⟩
  · obtain ⟨g, known, -, -, steps⟩ := each.exists_of_mem_right mem
    rw [none] at steps
    exact proper.filled g known steps.symm
  · obtain ⟨g, known, runtime, dense, steps⟩ := each.exists_of_mem_right mem
    have key := proper.own g known _ (feature steps of)
    rw [runtime, dense, Group.runtime, ← key]
    exact ⟨rfl, rfl⟩
  · obtain ⟨g, known, -, -, steps⟩ := each.exists_of_mem_right mem
    have key := proper.own g known _ (feature steps of)
    have key' := proper.own g known _ (feature steps of')
    obtain ⟨name, group, -⟩ := GroupKey.mk.inj (key.trans key'.symm)
    exact congrArg₂ Scope.mk name group
  · refine each.pairwise proper.scopes fun g _ g' _ b b' block block' other s of s' of' => ?_
    exact other _ (feature block.2.2 of) _ (feature block'.2.2 of')
  · obtain ⟨g, known, -, marked, steps⟩ := each.exists_of_mem_right mem
    rw [← proper.alone g known (marked ▸ dense), ← steps, List.length_map]

/-- Full names are distinct exactly if no two scopes are written alike. -/
theorem Separates.nodup_wireNames_iff (h : p.Separates) : p.wireNames.Nodup ↔ p.TellsApart := by
  constructor
  · intro distinct s mem s' mem' same
    obtain ⟨b, block, of⟩ := List.mem_flatMap.1 mem
    obtain ⟨b', block', of'⟩ := List.mem_flatMap.1 mem'
    rw [(h.placed b block s of).1, (h.placed b' block' s' of').1] at same
    cases List.inj_on_of_nodup_map distinct block block' same
    exact h.together b block s of s' of'
  · intro apart
    refine List.pairwise_map.2 (h.apart.imp_of_mem fun {b b'} block block' other same => ?_)
    obtain ⟨s, of⟩ := List.exists_mem_of_ne_nil _ (h.filled b block)
    obtain ⟨s', of'⟩ := List.exists_mem_of_ne_nil _ (h.filled b' block')
    rw [← (h.placed b block s of).1, ← (h.placed b' block' s' of').1] at same
    refine other s of s' of' (apart s ?_ s' ?_ same)
    · exact List.mem_flatMap.2 ⟨b, block, of⟩
    · exact List.mem_flatMap.2 ⟨b', block', of'⟩

end LinePlan

namespace Plan

variable {c : Catalogue} {r : Registry} {kind : OutputKind} {id : Nat} {p : Plan}

/-- The plans that the lines of a record are written along. -/
def linePlans (p : Plan) : List LinePlan := p.line :: (p.actions.map ActionPlan.candidate).toList

lemma plan_mem_of_mem_rows {root : Record} {target : LabelTarget} {row : Row} (mem : row ∈ p.rows root target) :
    row.plan ∈ p.linePlans := by
  unfold rows at mem
  unfold linePlans
  cases actions : p.actions with
  | none =>
    rw [actions, List.mem_singleton] at mem
    subst mem
    exact List.mem_cons_self
  | some a =>
    rw [actions] at mem
    rcases List.mem_cons.1 mem with rfl | mem
    · exact List.mem_cons_self
    · rw [ActionPlan.plan_of_mem_rowsFrom mem]
      exact List.mem_cons_of_mem _ List.mem_cons_self

/-- The line plans of a plan that compiles keep scopes apart. -/
lemma separates_of_mem_linePlans (compiled : Plan.compile c r kind id = .ok p) {line : LinePlan}
    (mem : line ∈ p.linePlans) : line.Separates := by
  obtain ⟨-, own, candidates⟩ := compile_spec compiled
  unfold linePlans at mem
  rcases List.mem_cons.1 mem with rfl | mem
  · exact LinePlan.compile_separates own
  · rcases candidates with ⟨-, none⟩ | ⟨_, _, actions, -, -, some, -, inner, -⟩
    · rw [none] at mem
      cases mem
    · rw [some] at mem
      cases List.mem_singleton.1 mem
      exact LinePlan.compile_separates inner

/-- Whatever marshallers do, a line has the namespaces of some blocks of its plan. -/
lemma serialize_lays {engine : Engine} {options : Options} {default : FloatFormat} {root : Record} {target : LabelTarget}
    {o : Output} (ok : (p.serialize engine options default root target).result = .ok o) {e : Example} (mem : e ∈ o.lines) :
    ∃ line ∈ p.linePlans, line.Lays engine e.namespaces := by
  obtain ⟨written, finished⟩ := serialize_eq_ok ok
  have start := p.idle_start engine options default
  obtain ⟨lines, idle, laid⟩ := emitRows_idle start written
  rw [← finished, idle.finish, List.nil_append] at mem
  obtain ⟨row, planned, lays⟩ := laid.exists_of_mem_right mem
  exact ⟨row.plan, plan_mem_of_mem_rows planned, lays⟩

/-- In a plan that compiles, the features of a scope share a namespace, and a dense feature has its scope to itself. Full
names are pairwise distinct exactly if no two scopes are written alike. A line has every namespace of its plan once, if it
has features in the line, and no other. -/
theorem exclusive_iff (compiled : Plan.compile c r kind id = .ok p) :
    (∀ line ∈ p.linePlans, line.Separates ∧ (line.wireNames.Nodup ↔ line.TellsApart)) ∧
      ∀ engine options default root target o, (p.serialize engine options default root target).result = .ok o →
        ∀ e ∈ o.lines, ∃ line ∈ p.linePlans, line.Lays engine e.namespaces := by
  refine ⟨fun line mem => ?_, fun engine options default root target o ok e mem => serialize_lays ok mem⟩
  have separates := separates_of_mem_linePlans compiled mem
  exact ⟨separates, separates.nodup_wireNames_iff⟩

/-- The scopes of a shop are written apart. -/
theorem exclusive_iff_shop :
    Plan.compile Shop.catalogue .empty .native 0 = .ok (Shop.plan .native) ∧ (Shop.plan .native).line.Separates ∧
      (Shop.plan .native).line.wireNames = ["", "attrs", "dense"] ∧ (Shop.plan .native).line.TellsApart ∧
      ∃ o, ((Shop.plan .native).serialize (.reference 7) {} .compact (Shop.record none) .none).result = .ok o ∧
        ∀ e ∈ o.lines, ∃ line ∈ (Shop.plan .native).linePlans, line.Lays (.reference 7) e.namespaces := by
  obtain ⟨apart, lays⟩ := exclusive_iff (Shop.compile_eq .native)
  obtain ⟨separates, iff⟩ := apart _ List.mem_cons_self
  have names : (Shop.plan .native).line.wireNames = ["", "attrs", "dense"] := by decide +kernel
  have ok : ((Shop.plan .native).serialize (.reference 7) {} .compact (Shop.record none) .none).result = .ok _ := rfl
  exact ⟨Shop.compile_eq .native, separates, names, iff.1 (names ▸ by decide), _, ok, lays _ _ _ _ _ _ ok⟩

end Plan

/-! ## Scopes that are written alike -/

namespace Crossed

def number : ValueType := ⟨"f32", .scalar .numeric⟩
def numbers : ValueType := ⟨"Vec<f32>", .vector .numeric⟩

/-- A dense feature in a group and a feature without one, whose namespaces have the same full name. -/
def catalogue : Catalogue :=
  [⟨"Crossed", [⟨"v", false, .feature { namespaceName := some "b", group := some 'a' } numbers none⟩,
      ⟨"x", false, .feature { namespaceName := some "ab" } number none⟩]⟩]

def v : Descriptor := .ofFeature ⟨0, "v", false⟩ {} ⟨some "b", some 'a'⟩ numbers none
def x : Descriptor := .ofFeature ⟨1, "x", false⟩ {} ⟨some "ab", none⟩ number none

def plan : Plan :=
  ⟨.native,
    ⟨"Crossed",
      [⟨.make (some "b") (some 'a'), true,
          [⟨v, ⟨"featwire::marshal::DenseMarshaller", some numbers, fun _ => Handle.writeDense⟩, .builtIn⟩]⟩,
        ⟨.make (some "ab") none, false,
          [⟨x, ⟨"featwire::marshal::NumericMarshaller", some number, fun _ => Handle.writeNumeric⟩, .builtIn⟩]⟩],
      none⟩,
    none⟩

def record : Record :=
  [some (.leaf ⟨0, numbers⟩ (.items [.integer 5])), some (.leaf ⟨1, number⟩ (.scalar (.integer 3)))]

lemma compile_eq : Plan.compile catalogue .empty .native 0 = .ok plan := by
  have extracted : catalogue.extract .root 0 = .ok [v, x] := by
    simp [Catalogue.extract, Catalogue.extractFields, Catalogue.fields, catalogue, Role.asMember?, Except.bind,
      Except.map, List.range, List.range.loop, v, x, number, numbers, Scope.enter, Scope.root, Descriptor.ofFeature]
  have grouped : groupFeatures "Crossed" [v, x] =
      .ok [⟨⟨some "b", some 'a', true⟩, [v]⟩, ⟨⟨some "ab", none, false⟩, [x]⟩] := by
    simp [groupFeatures, Group.collect, Group.add, Descriptor.key, Group.problem?, Group.sorted, v, x, number, numbers,
      Descriptor.ofFeature, Descriptor.isDense, Descriptor.shape, Form.shape]
  have line : LinePlan.compile catalogue .empty 0 = .ok plan.line :=
    Except.bind_eq_ok.2 ⟨_, extracted, Except.bind_eq_ok.2 ⟨_, grouped, rfl⟩⟩
  exact Except.bind_eq_ok.2 ⟨_, line, rfl⟩

end Crossed

/-- A dense namespace and another one have one full name, and a line has both. -/
theorem Plan.not_nodup_wireNames :
    Plan.compile Crossed.catalogue .empty .native 0 = .ok Crossed.plan ∧ Crossed.plan.line.wireNames = ["ab", "ab"] ∧
      ¬Crossed.plan.line.wireNames.Nodup ∧ Crossed.plan.line.blocks.map Block.dense = [true, false] ∧
      let space := (Engine.reference 0).hashSpace "ab"
      ∃ o, (Crossed.plan.serialize (.reference 0) {} .compact Crossed.record .none).result = .ok o ∧
        (o.lines.map fun e => e.namespaces.map fun n => (n.index, n.hash)) = [[('a', space), ('a', space)]] :=
  ⟨Crossed.compile_eq, by decide +kernel, by decide +kernel, by decide +kernel, _, rfl, by decide +kernel⟩

end FeatureLines
