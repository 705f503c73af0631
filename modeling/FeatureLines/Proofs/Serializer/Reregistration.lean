import FeatureLines.Proofs.Schema.Typing
import FeatureLines.Proofs.Serializer.Collections
import FeatureLines.Proofs.Serializer.Direct
import FeatureLines.Proofs.Serializer.Failures
import FeatureLines.Proofs.Serializer.Parts

/-!
# Registering one more marshaller

A registration at a type decides on the marshaller of the features of this type that have none of their own, and on no
other (`resolve_register`). So a schema that compiles still does, to a plan that differs in the marshallers of these
features (`Plan.Rebinds`), and they alone may contribute something else to a line.

Main statement: `Plan.registers_locally`.
-/

namespace Except

/-- What is computed on every member still is when every result has a counterpart. -/
lemma exists_mapM_eq_ok {ε α β : Type} {f g : α → Except ε β} {R : β → β → Prop} {l : List α} {bs : List β}
    (ok : l.mapM f = .ok bs) (each : ∀ a b, f a = .ok b → ∃ b', g a = .ok b' ∧ R b b') :
    ∃ bs', l.mapM g = .ok bs' ∧ List.Forall₂ R bs bs' := by
  rw [mapM_eq_ok] at ok
  induction ok with
  | nil => exact ⟨[], rfl, .nil⟩
  | cons first _ ih =>
    obtain ⟨b', made, related⟩ := each _ _ first
    obtain ⟨bs', others, all⟩ := ih
    exact ⟨b' :: bs', mapM_eq_ok.2 (.cons made (mapM_eq_ok.1 others)), .cons related all⟩

end Except

namespace FeatureLines

/-! ## Resolution -/

/-- A feature of the type without a marshaller of its own: the registry decides. -/
def Descriptor.IsLeftTo (type : ValueType) (d : Descriptor) : Prop := d.override = none ∧ d.type = type

/-- A registration takes the features that are left to its type, and no others. -/
lemma resolve_register (typeName : String) (r : Registry) (type : ValueType) (entry : Entry) (d : Descriptor) :
    (d.IsLeftTo type → resolve typeName (r.register type entry) d = .ok (entry.handle, .registered)) ∧
      (¬d.IsLeftTo type → resolve typeName (r.register type entry) d = resolve typeName r d) := by
  have found : (r.register type entry).get? d.type = if d.type = type then some entry.handle else r.get? d.type := by
    rw [Registry.get?, Registry.entry?_register]
    split <;> rfl
  constructor
  · rintro ⟨own, same⟩
    unfold resolve
    rw [own, found, if_pos same]
  · intro other
    unfold resolve
    cases own : d.override with
    | some handle => rfl
    | none =>
      have differs : d.type ≠ type := fun same => other ⟨own, same⟩
      rw [found, if_neg differs]

/-- What is not left to the type contributes what it did before. -/
lemma Leaf.contribution_register {type : ValueType} {leaf : Leaf} (other : ¬leaf.descriptor.IsLeftTo type)
    {typeName : String} {r : Registry} {entry : Entry} {engine : Engine} {text : Bool} {root : Record}
    (space : Namespace) :
    leaf.contribution typeName (r.register type entry) engine text root space =
      leaf.contribution typeName r engine text root space := by
  unfold contribution
  rw [(resolve_register typeName r type entry leaf.descriptor).2 other]

/-- Two lines of a record, before and after a registration: their namespaces are those of the same leaves, and what is
not left to the type contributes the same to both. -/
def Catalogue.Relines (c : Catalogue) (r : Registry) (type : ValueType) (entry : Entry) (engine : Engine) (text : Bool)
    (subject : Nat × Record) (line line' : Example) : Prop :=
  ∃ leaves, c.Walk .root 0 (c.fields subject.1) leaves ∧
    line.namespaces = Leaf.namespaces engine
      (Leaf.contribution (c.name subject.1) r engine text subject.2) leaves ∧
    line'.namespaces = Leaf.namespaces engine
      (Leaf.contribution (c.name subject.1) (r.register type entry) engine text subject.2) leaves ∧
    ∀ leaf ∈ leaves, ¬leaf.descriptor.IsLeftTo type → ∀ space,
      leaf.contribution (c.name subject.1) (r.register type entry) engine text subject.2 space =
        leaf.contribution (c.name subject.1) r engine text subject.2 space

/-! ## Plans -/

/-- The label that a head stands for; without a head it is that of a new example. -/
def Engine.labelOf (engine : Engine) (head : Option String) : Except LabelError (Option ParsedLabel) :=
  match head with
  | none => .ok engine.newExample.label
  | some text => (engine.readLabel text.toList).map some

variable {type : ValueType} {entry : Entry}

/-- From one step to another the marshaller changes, if the feature is left to the type, and nothing else. -/
structure Step.Rebinds (type : ValueType) (entry : Entry) (s s' : Step) : Prop where
  descriptor : s'.descriptor = s.descriptor
  left : s.descriptor.IsLeftTo type → s'.handle = entry.handle ∧ s'.resolution = .registered
  kept : ¬s.descriptor.IsLeftTo type → s' = s

structure Block.Rebinds (type : ValueType) (entry : Entry) (b b' : Block) : Prop where
  runtime : b'.runtime = b.runtime
  dense : b'.dense = b.dense
  steps : List.Forall₂ (Step.Rebinds type entry) b.steps b'.steps

structure LinePlan.Rebinds (type : ValueType) (entry : Entry) (p p' : LinePlan) : Prop where
  typeName : p'.typeName = p.typeName
  label : p'.label = p.label
  blocks : List.Forall₂ (Block.Rebinds type entry) p.blocks p'.blocks

/-- From one plan to another the marshallers of the features that are left to the type change, for the record itself and
for its candidates, and nothing else. -/
structure Plan.Rebinds (type : ValueType) (entry : Entry) (p p' : Plan) : Prop where
  kind : p'.kind = p.kind
  line : p.line.Rebinds type entry p'.line
  actions : Option.Rel (fun a a' => a'.member = a.member ∧ a.candidate.Rebinds type entry a'.candidate)
    p.actions p'.actions

/-- A group of features is still bound. -/
lemma Block.ofGroup_rebinds (entry : Entry) {typeName : String} {r : Registry} {g : Group} {b : Block}
    (ok : Block.ofGroup typeName r g = .ok b) :
    ∃ b', Block.ofGroup typeName (r.register type entry) g = .ok b' ∧ b.Rebinds type entry b' := by
  obtain ⟨steps, bound, done⟩ := Except.bind_eq_ok.1 ok
  cases done
  let bind (r : Registry) (d : Descriptor) : Except SchemaError Step :=
    resolve typeName r d >>= fun found => .ok ⟨d, found.1, found.2⟩
  have each (d : Descriptor) (s : Step) (ok : bind r d = .ok s) :
      ∃ s', bind (r.register type entry) d = .ok s' ∧ s.Rebinds type entry s' := by
    obtain ⟨⟨handle, resolution⟩, found, done⟩ := Except.bind_eq_ok.1 ok
    cases done
    obtain ⟨left, kept⟩ := resolve_register typeName r type entry d
    by_cases isLeft : d.IsLeftTo type
    · exact ⟨⟨d, entry.handle, .registered⟩, Except.bind_eq_ok.2 ⟨_, left isLeft, rfl⟩,
        ⟨rfl, fun _ => ⟨rfl, rfl⟩, fun other => absurd isLeft other⟩⟩
    · exact ⟨⟨d, handle, resolution⟩, Except.bind_eq_ok.2 ⟨_, (kept isLeft).trans found, rfl⟩,
        ⟨rfl, fun left => absurd left isLeft, fun _ => rfl⟩⟩
  obtain ⟨steps', bound', all⟩ := Except.exists_mapM_eq_ok bound each
  exact ⟨_, Except.bind_eq_ok.2 ⟨_, bound', rfl⟩, rfl, rfl, all⟩

/-- Features and groups are found without the registry, so the same groups are bound. -/
lemma LinePlan.compile_rebinds (type : ValueType) (entry : Entry) {c : Catalogue} {r : Registry} {id : Nat}
    {p : LinePlan} (ok : LinePlan.compile c r id = .ok p) :
    ∃ p', LinePlan.compile c (r.register type entry) id = .ok p' ∧ p.Rebinds type entry p' := by
  obtain ⟨ds, extracted, ok⟩ := Except.bind_eq_ok.1 ok
  obtain ⟨gs, grouped, ok⟩ := Except.bind_eq_ok.1 ok
  obtain ⟨blocks, bound, labelled⟩ := Except.bind_eq_ok.1 ok
  have each (g : Group) (b : Block) (ok : Block.ofGroup (c.name id) r g = .ok b) :
      ∃ b', Block.ofGroup (c.name id) (r.register type entry) g = .ok b' ∧ b.Rebinds type entry b' :=
    Block.ofGroup_rebinds entry ok
  obtain ⟨blocks', bound', all⟩ := Except.exists_mapM_eq_ok bound each
  split at labelled
  · rename_i labels
    cases labelled
    exact ⟨⟨c.name id, blocks', none⟩, Except.bind_eq_ok.2 ⟨_, extracted, Except.bind_eq_ok.2 ⟨_, grouped,
      Except.bind_eq_ok.2 ⟨_, bound', by rw [labels]; rfl⟩⟩⟩, rfl, rfl, all⟩
  · rename_i label labels
    cases labelled
    exact ⟨⟨c.name id, blocks', some label⟩, Except.bind_eq_ok.2 ⟨_, extracted, Except.bind_eq_ok.2 ⟨_, grouped,
      Except.bind_eq_ok.2 ⟨_, bound', by rw [labels]; rfl⟩⟩⟩, rfl, rfl, all⟩
  · cases labelled

namespace Plan

/-- A schema that compiles still does. -/
lemma compile_rebinds (type : ValueType) (entry : Entry) {c : Catalogue} {r : Registry} {kind : OutputKind} {id : Nat}
    {p : Plan} (ok : Plan.compile c r kind id = .ok p) :
    ∃ p', Plan.compile c (r.register type entry) kind id = .ok p' ∧ p.Rebinds type entry p' := by
  obtain ⟨line, compiled, ok⟩ := Except.bind_eq_ok.1 ok
  obtain ⟨line', compiled', rebinds⟩ := LinePlan.compile_rebinds type entry compiled
  obtain ⟨found, member, ok⟩ := Except.bind_eq_ok.1 ok
  cases found with
  | none =>
    cases ok
    exact ⟨_, Except.bind_eq_ok.2 ⟨_, compiled', Except.bind_eq_ok.2 ⟨_, member, rfl⟩⟩, rfl, rebinds, .none⟩
  | some found =>
    obtain ⟨candidate, inner, ok⟩ := Except.bind_eq_ok.1 ok
    obtain ⟨actions, put, ok⟩ := Except.bind_eq_ok.1 ok
    cases ok
    obtain ⟨candidate', inner', others⟩ := LinePlan.compile_rebinds type entry inner
    unfold ActionPlan.ofCandidate at put
    split at put
    · cases put
    · rename_i some_blocks
      cases put
      have put' : ActionPlan.ofCandidate found.1 candidate' = .ok ⟨found.1, candidate'⟩ := by
        refine if_neg fun none => some_blocks ?_
        have blocks := others.blocks
        rw [List.isEmpty_iff.1 none, List.forall₂_nil_right_iff] at blocks
        rw [blocks]
        rfl
      exact ⟨_, Except.bind_eq_ok.2 ⟨_, compiled', Except.bind_eq_ok.2 ⟨_, member, Except.bind_eq_ok.2 ⟨_, inner',
        Except.bind_eq_ok.2 ⟨_, put', rfl⟩⟩⟩⟩, rfl, rebinds, .some ⟨rfl, others⟩⟩

variable {c : Catalogue} {r : Registry} {kind : OutputKind} {id : Nat} {p : Plan} {engine : Engine} {options : Options}
  {default : FloatFormat} {root : Record} {target : LabelTarget} {o : Output}

/-! ## Lines -/

/-- The labels of lines are what the engine reads from the labels that are chosen. -/
lemma labels_of_forgets (compiled : Plan.compile c r kind id = .ok p) (off : options.dictify = false)
    (forgets : ∀ b ∈ p.blocks, ∀ s ∈ b.steps, s.Forgets engine (decide (kind = .nativeAndText)) b.runtime)
    (ok : (p.serialize engine options default root target).result = .ok o) :
    o.lines.map (fun line => (.ok line.label : Except LabelError (Option ParsedLabel))) =
      (c.chosenLabels id root target).map fun chosen => engine.labelOf (chosen.map Label.text) := by
  have heads := congrArg (List.map engine.labelOf) (heads_rows compiled root target)
  rw [List.map_map, List.map_map] at heads
  refine Eq.trans ?_ heads
  rw [← List.forall₂_eq_eq_eq, List.forall₂_map_left_iff, List.forall₂_map_right_iff]
  refine (rows_line compiled off forgets ok).flip.imp fun line row eq => ?_
  obtain ⟨label, read, rfl⟩ := Except.map_eq_ok.1 eq
  exact read.symm

/-- The blocks of candidates are bound anew as those of the record itself. -/
lemma Rebinds.forall₂_blocks {p' : Plan} (rebinds : p.Rebinds type entry p') :
    List.Forall₂ (Block.Rebinds type entry) p.blocks p'.blocks := by
  unfold Plan.blocks
  refine List.rel_append rebinds.line.blocks ?_
  have actions := rebinds.actions
  cases hp : p.actions with
  | none =>
    rw [hp] at actions
    generalize p'.actions = actions' at actions
    cases actions
    exact .nil
  | some a =>
    rw [hp] at actions
    generalize p'.actions = actions' at actions
    cases actions with
    | some related => exact related.2.blocks

/-- Features whose texts are not kept still are such. -/
lemma Rebinds.not_dictified {p' : Plan} (rebinds : p.Rebinds type entry p')
    (members : ∀ b ∈ p.blocks, ∀ s ∈ b.steps, s.descriptor.dictify = false) :
    ∀ b ∈ p'.blocks, ∀ s ∈ b.steps, s.descriptor.dictify = false := by
  intro b' mem' s' step'
  obtain ⟨b, mem, block⟩ := rebinds.forall₂_blocks.exists_of_mem_right mem'
  obtain ⟨s, step, rebound⟩ := block.steps.exists_of_mem_right step'
  rw [rebound.descriptor]
  exact members b mem s step

/-- A registration is a local change. A schema that compiles still does, to the same namespaces with the same leaves in
order, the same label and the same member of candidates; the marshaller changes for the features that are left to the
type, and for no others. A record is refused by both plans for the same reason, or serialized by both. If no texts are
kept, their lines have the same labels, and namespaces of the same leaves in the same groups, and whatever is not left
to the type contributes the same features to both, on the line of a record as on those of its candidates. -/
theorem registers_locally (compiled : Plan.compile c r kind id = .ok p) (type : ValueType) (entry : Entry) :
    ∃ p', Plan.compile c (r.register type entry) kind id = .ok p' ∧ p.Rebinds type entry p' ∧
      ∀ (engine : Engine) (options : Options) (default : FloatFormat) (root : Record) (target : LabelTarget),
        (∀ failure, (p.serialize engine options default root target).result = .error failure ↔
          (p'.serialize engine options default root target).result = .error failure) ∧
        (options.dictify = false → (∀ b ∈ p.blocks, ∀ s ∈ b.steps, s.descriptor.dictify = false) →
          (∀ b ∈ p.blocks ++ p'.blocks, ∀ s ∈ b.steps, s.isCustom = true →
            s.Forgets engine (decide (kind = .nativeAndText)) b.runtime) →
          ∀ o o', (p.serialize engine options default root target).result = .ok o →
            (p'.serialize engine options default root target).result = .ok o' →
            o'.multiLine = o.multiLine ∧ o'.lines.map Example.label = o.lines.map Example.label ∧
              o.lines.length = (c.lines id root).length ∧
              ∀ (i : Nat) (subject : Nat × Record) (line line' : Example), (c.lines id root)[i]? = some subject →
                o.lines[i]? = some line → o'.lines[i]? = some line' →
                c.Relines r type entry engine (decide (kind = .nativeAndText)) subject line line') := by
  obtain ⟨p', compiled', rebinds⟩ := compile_rebinds type entry compiled
  refine ⟨p', compiled', rebinds, fun engine options default root target =>
    ⟨fun failure => ?_, fun off members custom o o' ok ok' => ?_⟩⟩
  · rw [serialize_eq_error_iff compiled, serialize_eq_error_iff compiled']
  · have members' := rebinds.not_dictified members
    have forgets := forgets_of_custom compiled members fun b mem => custom b (List.mem_append_left _ mem)
    have forgets' := forgets_of_custom compiled' members' fun b mem => custom b (List.mem_append_right _ mem)
    have lines := isLine_of_forgets compiled off forgets ok
    have lines' := isLine_of_forgets compiled' off forgets' ok'
    have labels := (labels_of_forgets compiled' off forgets' ok').trans (labels_of_forgets compiled off forgets ok).symm
    refine ⟨?_, ?_, lines.length_eq.symm, fun i subject line line' found here here' => ?_⟩
    · rw [multiLine_of_compile compiled' ok', multiLine_of_compile compiled ok]
    · have injective : Function.Injective (Except.ok : Option ParsedLabel → Except LabelError (Option ParsedLabel)) :=
        fun _ _ => Except.ok.inj
      refine List.map_injective_iff.2 injective ?_
      rwa [List.map_map, List.map_map]
    · obtain ⟨line₁, same, leaves, walk, namespaces⟩ := lines.getElem? found
      obtain ⟨line₂, same', leaves', walk', namespaces'⟩ := lines'.getElem? found
      cases here.symm.trans same
      cases here'.symm.trans same'
      cases walk.unique walk'
      exact ⟨leaves, walk, namespaces, namespaces', fun leaf _ other space => leaf.contribution_register other space⟩

end Plan

/-! ## An example -/

namespace Shop

def markedText : Registry := Registry.empty.register text ⟨marker, 1, false⟩

/-- The plan of a shop where texts are marked. The mark was marked before. -/
def markedPlan (kind : OutputKind) : Plan :=
  ⟨kind,
    ⟨"Shop",
      [⟨.make none none, false, [step size "NumericMarshaller" Handle.writeNumeric,
          step price "NumericMarshaller" Handle.writeNumeric]⟩,
        ⟨.make (some "attrs") none, false, [⟨color, marker, .registered⟩, ⟨mark, marker, .override⟩]⟩,
        ⟨.make (some "dense") none, true, [step stock "DenseMarshaller" Handle.writeDense]⟩],
      some ⟨0, "target"⟩⟩,
    none⟩

lemma compile_markedText (kind : OutputKind) : Plan.compile catalogue markedText kind 0 = .ok (markedPlan kind) := by
  have line : LinePlan.compile catalogue markedText 0 = .ok (markedPlan kind).line :=
    Except.bind_eq_ok.2 ⟨_, extract_eq, Except.bind_eq_ok.2 ⟨_, groupFeatures_eq, rfl⟩⟩
  exact Except.bind_eq_ok.2 ⟨_, line, rfl⟩

end Shop

/-- In a shop, a registration for texts takes the color, and leaves the mark, which has a marshaller of its own. -/
theorem Plan.registers_locally_shop :
    let shop := Shop.record (some Shop.item)
    (Shop.plan .native).Rebinds Shop.text ⟨Shop.marker, 1, false⟩ (Shop.markedPlan .native) ∧
      ∃ o o', ((Shop.plan .native).serialize (.reference 7) {} .compact shop .none).result = .ok o ∧
        ((Shop.markedPlan .native).serialize (.reference 7) {} .compact shop .none).result = .ok o' ∧
        o.lines.map (fun line => line.namespaces.map (·.features.length)) = [[2, 2, 3]] ∧
        ∀ line line', o.lines[0]? = some line → o'.lines[0]? = some line' →
          Shop.catalogue.Relines .empty Shop.text ⟨Shop.marker, 1, false⟩ (.reference 7) false (0, shop)
            line line' := by
  intro shop
  obtain ⟨p', compiled, rebinds, runs⟩ := registers_locally (Shop.compile_eq .native) Shop.text ⟨Shop.marker, 1, false⟩
  cases compiled.symm.trans (Shop.compile_markedText .native)
  have marked (d : Descriptor) (source : Resolution) (space : Namespace) :
      Step.Forgets (.reference 7) false space ⟨d, Shop.marker, source⟩ := fun cell => by
    unfold Handle.write
    split
    · trivial
    · split <;> trivial
  have members : ∀ b ∈ (Shop.plan .native).blocks, ∀ s ∈ b.steps, s.descriptor.dictify = false := by decide +kernel
  have custom : ∀ b ∈ (Shop.plan .native).blocks ++ (Shop.markedPlan .native).blocks, ∀ s ∈ b.steps,
      s.isCustom = true → s.Forgets (.reference 7) false b.runtime := by
    simp [blocks, Shop.plan, Shop.markedPlan, Shop.step, Step.isCustom, marked]
  have ok : ((Shop.plan .native).serialize (.reference 7) {} .compact shop .none).result = .ok _ := rfl
  have ok' : ((Shop.markedPlan .native).serialize (.reference 7) {} .compact shop .none).result = .ok _ := rfl
  obtain ⟨-, lines⟩ := runs (.reference 7) {} .compact shop .none
  refine ⟨rebinds, _, _, ok, ok', by decide +kernel, fun line line' here here' => ?_⟩
  exact (lines rfl members custom _ _ ok ok').2.2.2 0 _ line line' rfl here here'

end FeatureLines
