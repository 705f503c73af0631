import Mathlib.Data.List.Perm.Basic
import FeatureLines.Proofs.Schema.Layout
import FeatureLines.Proofs.Schema.Typing
import FeatureLines.Proofs.Serializer.Rows

/-!
# Calls on marshallers

Marshallers take values of any type and check the type when they are called. What is called while a line is written are the
deliveries of its plan: a marshaller with the feature, the namespace and the value (`LinePlan.deliveries`). In a typed record
every marshaller is given a value of the type that it is bound to (`Delivery.Sound`), so that no check ever fails and
writing a line is running the marshallers on their values in order (`LinePlan.deliverBlocks`).

Main statement: `Plan.dispatches`. Every value that is there is delivered once, to the marshaller of its leaf.
-/

namespace FeatureLines

/-- The text that a cell has by itself: that of its scalar, or the name of its variant, which is empty if there is no such
variant. -/
inductive Cell.Renders : Cell → Rendering → Prop
  | scalar {site : Site} {value : Scalar} : Renders (.leaf site (.scalar value)) value.rendering
  | variant {site : Site} {index : Nat} :
      Renders (.leaf site (.variant index)) ⟨site.type.form.variants[index]?.getD "", none⟩

/-- A call on the marshaller of a step, with the value of the feature. -/
structure Delivery where
  space : Namespace
  step : Step
  cell : Cell

namespace Delivery

/-- What the marshaller writes, past the check of the type. -/
def writing (d : Delivery) : Writing := d.step.handle.marshal d.space d.step.descriptor.feature d.cell

/-- Where the value lies. -/
def place (d : Delivery) : List Nat × Cell := (d.step.descriptor.steps, d.cell)

/-- The marshaller is made for the type that the value is stored as: it is bound to this type, or it is the one that makes
tokens of the texts of this type, and then the value has a text. -/
inductive Sound (d : Delivery) : Prop
  | bound (same : d.step.handle.bound = some d.cell.site.type)
  | rendered (made : Handle.enumerizing? d.cell.site.type = some d.step.handle)
      (text : d.cell.Renders (Handle.renderingAs d.cell.site.type d.cell))

end Delivery

/-- The call for a feature, if its value is there. -/
def Step.delivery? (s : Step) (space : Namespace) (root : Record) : Option Delivery :=
  (s.descriptor.value? root).map fun cell => ⟨space, s, cell⟩

namespace Block

def deliveries (b : Block) (root : Record) : List Delivery := b.steps.filterMap fun s => s.delivery? b.runtime root

/-- Writes a namespace by its deliveries. -/
def deliver (b : Block) (root : Record) (c : Context) : Context :=
  let c := c.beginNamespace b.runtime
  let c := if b.room = 0 then c else c.preallocate b.room
  ((b.deliveries root).foldl (fun c d => c.run d.writing) c).endNamespace

end Block

namespace LinePlan

/-- The calls that are made for a line, in order. -/
def deliveries (p : LinePlan) (root : Record) : List Delivery := p.blocks.flatMap fun b => b.deliveries root

/-- Writes the namespaces of a record by their deliveries. -/
def deliverBlocks (p : LinePlan) (root : Record) (c : Context) : Context :=
  p.blocks.foldl (fun c block => block.deliver root c) c

end LinePlan

/-- Writes a row by its deliveries. -/
def Row.deliver (row : Row) (c : Context) : Attempt :=
  match row.head with
  | none => ⟨(row.plan.deliverBlocks row.root c.startLine).endLine, none⟩
  | some text =>
    match c.startLine.writeLabel text with
    | .ok c => ⟨(row.plan.deliverBlocks row.root c).endLine, none⟩
    | .error failure => ⟨c.startLine, some failure⟩

/-- Writes rows by their deliveries, up to the first one that fails. -/
def deliverRows (c : Context) : List Row → Attempt
  | [] => ⟨c, none⟩
  | row :: rest =>
    match (row.deliver c).failure with
    | some _ => row.deliver c
    | none => deliverRows (row.deliver c).context rest

/-- How the values of a record of a type are dispatched. -/
structure LinePlan.Dispatches (c : Catalogue) (r : Registry) (id : Nat) (leaves : List Leaf) (p : LinePlan)
    (root : Record) : Prop where
  walk : c.Walk .root 0 (c.fields id) leaves
  /-- No marshaller is given a value of another type. -/
  sound : ∀ d ∈ p.deliveries root, d.Sound
  /-- What is delivered is the value of a leaf, and the marshaller is the one that the leaf resolves to. -/
  own : ∀ d ∈ p.deliveries root, ∃ leaf ∈ leaves, d.step.Realizes (c.name id) r leaf ∧ leaf.value? root = some d.cell
  /-- Leaves lie at different places. -/
  apart : (leaves.map fun leaf => Leaf.steps leaf.chain).Nodup
  /-- The values that are delivered are those that are there, each once. -/
  once : ((p.deliveries root).map Delivery.place).Perm
    (leaves.filterMap fun leaf => (leaf.value? root).map (Leaf.steps leaf.chain, ·))
  /-- Writing the namespaces is running the marshallers on what is delivered to them. -/
  written : ∀ context, p.emitBlocks root context = p.deliverBlocks root context

/-! ## Marshallers and types -/

namespace Handle

lemma bound_of_builtIn? {type : ValueType} {h : Handle} (found : builtIn? type = some h) : h.bound = some type := by
  unfold builtIn? at found
  split at found <;> cases found <;> rfl

lemma bound_of_enumerizing? {type : ValueType} {h : Handle} (found : enumerizing? type = some h) :
    h.bound = none ∧ hasRendering type = true := by
  unfold enumerizing? at found
  split at found
  · rename_i rendering
    cases found
    exact ⟨rfl, rendering⟩
  · cases found

/-- The types with texts are those of scalars of which something is known, and enumerations. -/
lemma form_of_hasRendering {type : ValueType} (rendering : hasRendering type = true) :
    (∃ kind, type.form = .scalar kind ∧ kind ≠ .hidden) ∨ ∃ variants, type.form = .enumeration variants := by
  unfold hasRendering at rendering
  cases form : type.form with
  | scalar kind =>
    refine .inl ⟨kind, rfl, ?_⟩
    rintro rfl
    rw [form] at rendering
    cases rendering
  | enumeration variants => exact .inr ⟨variants, rfl⟩
  | vector kind => cases kind <;> simp [form, Form.shape] at rendering
  | block kind => cases kind <;> simp [form, Form.shape] at rendering
  | set kind => cases kind <;> simp [form, Form.shape] at rendering
  | entries key value => cases key <;> cases value <;> simp [form, Form.shape] at rendering
  | record id => simp [form, Form.shape] at rendering
  | label => simp [form, Form.shape] at rendering
  | candidates id => simp [form, Form.shape] at rendering

/-- A value of a type with texts has a text. -/
lemma renders_of_hasRendering {c : Catalogue} {type : ValueType} {cell : Cell} (rendering : hasRendering type = true)
    (typed : c.HasType type cell) : cell.Renders (renderingAs type cell) := by
  have texts := form_of_hasRendering rendering
  unfold renderingAs
  rw [if_pos typed.site]
  cases typed with
  | @leaf site datum fits =>
    rcases texts with ⟨kind, form, known⟩ | ⟨variants, form⟩
    · rw [form] at fits
      cases datum with
      | scalar value => exact .scalar
      | _ => cases kind <;> first | exact absurd rfl known | cases fits
    · rw [form] at fits
      cases datum with
      | variant index => exact .variant
      | _ => cases fits
  | record form => simp [form] at texts
  | candidates form => simp [form] at texts

end Handle

/-- The marshaller of a leaf is bound to the type of the leaf, or it makes tokens of the texts of the type. -/
lemma Step.Realizes.bound {type : String} {r : Registry} {leaf : Leaf} {s : Step} (realizes : s.Realizes type r leaf)
    (registered : r.Bound) (own : ∀ handle, leaf.override = some handle → handle.bound = some leaf.type) :
    s.handle.bound = some leaf.type ∨ Handle.enumerizing? leaf.type = some s.handle := by
  rcases resolve_eq_ok realizes.resolved with ⟨-, given⟩ | ⟨-, -, found⟩ | ⟨-, -, -, -, made⟩ | ⟨-, -, -, -, found⟩
  · exact .inl (own _ given)
  · exact .inl (registered _ _ found)
  · exact .inr made
  · exact .inl (Handle.bound_of_builtIn? found)

namespace Delivery

/-- A marshaller that is given a value of its type writes it. -/
lemma Sound.write {d : Delivery} (sound : d.Sound) :
    d.step.handle.write d.space d.step.descriptor.feature d.cell = d.writing := by
  unfold Handle.write writing
  cases sound with
  | bound same =>
    rw [same]
    exact if_pos rfl
  | rendered made _ => rw [(Handle.bound_of_enumerizing? made).1]

end Delivery

/-! ## Writing by deliveries -/

/-- Writing a namespace is running the marshallers that it delivers to. -/
lemma Block.emit_eq_deliver {b : Block} {root : Record} (sound : ∀ d ∈ b.deliveries root, d.Sound) (c : Context) :
    b.emit root c = b.deliver root c := by
  have steps (steps : List Step) (sound : ∀ d ∈ steps.filterMap fun s => s.delivery? b.runtime root, d.Sound)
      (c : Context) : steps.foldl (fun c s => s.emit b.runtime root c) c =
        (steps.filterMap fun s => s.delivery? b.runtime root).foldl (fun c d => c.run d.writing) c := by
    induction steps generalizing c with
    | nil => rfl
    | cons s rest ih =>
      rw [List.foldl_cons, Step.emit]
      cases found : s.descriptor.value? root with
      | none =>
        have nothing : s.delivery? b.runtime root = none := by rw [Step.delivery?, found, Option.map_none]
        simp only [List.filterMap_cons, nothing] at sound ⊢
        exact ih sound c
      | some cell =>
        have called : s.delivery? b.runtime root = some ⟨b.runtime, s, cell⟩ := by
          rw [Step.delivery?, found, Option.map_some]
        simp only [List.filterMap_cons, called] at sound ⊢
        obtain ⟨first, others⟩ := List.forall_mem_cons.1 sound
        rw [List.foldl_cons, ← ih others, ← first.write]
  unfold emit deliver
  simp only
  rw [steps b.steps sound]
  rfl

/-- Writing the namespaces of a record is running the marshallers that they deliver to. -/
lemma LinePlan.emitBlocks_eq_deliverBlocks {p : LinePlan} {root : Record} (sound : ∀ d ∈ p.deliveries root, d.Sound)
    (c : Context) : p.emitBlocks root c = p.deliverBlocks root c :=
  List.foldl_ext _ _ c fun c b mem => Block.emit_eq_deliver
    (fun d delivered => sound d (List.mem_flatMap.2 ⟨b, mem, delivered⟩)) c

/-- Rows whose namespaces are written by deliveries are written by deliveries. -/
theorem emitRows_eq_deliverRows {rows : List Row}
    (written : ∀ row ∈ rows, ∀ c, row.plan.emitBlocks row.root c = row.plan.deliverBlocks row.root c) (c : Context) :
    emitRows c rows = deliverRows c rows := by
  induction rows generalizing c with
  | nil => rfl
  | cons row rest ih =>
    obtain ⟨here, others⟩ := List.forall_mem_cons.1 written
    have first : row.emit c = row.deliver c := by
      unfold Row.emit Row.deliver
      cases row.head with
      | none => simp only [here]
      | some text => cases written : c.startLine.writeLabel text <;> simp only [written, here]
    rw [emitRows_cons, deliverRows, first]
    cases (row.deliver c).failure with
    | none => exact ih others _
    | some failure => rfl

/-! ## Values that are there -/

section

variable {c : Catalogue} {r : Registry} {id : Nat} {type : String} {root : Record}

/-- The values that a namespace delivers are those of its leaves. -/
lemma Block.Realizes.places {g : LeafGroup} {b : Block} (realizes : b.Realizes type r g) (root : Record) :
    (b.deliveries root).map Delivery.place =
      g.leaves.filterMap fun leaf => (leaf.value? root).map (Leaf.steps leaf.chain, ·) := by
  have steps := realizes.steps
  unfold Block.deliveries
  generalize b.steps = bound at steps ⊢
  generalize g.leaves = leaves at steps ⊢
  induction steps with
  | nil => rfl
  | @cons leaf s _ _ first _ ih =>
    have value : s.descriptor.value? root = leaf.value? root := by rw [first.descriptor, leaf.descriptor_value?]
    rw [List.filterMap_cons, List.filterMap_cons, Step.delivery?, value]
    cases leaf.value? root with
    | none => exact ih
    | some cell =>
      rw [Option.map_some, Option.map_some, List.map_cons, ih, Delivery.place, first.descriptor]
      rfl

namespace LinePlan

/-- The values that a line delivers are those of its leaves, in the order in which they are written. -/
lemma Realizes.places {leaves : List Leaf} {p : LinePlan} (realizes : p.Realizes c r id leaves) (root : Record) :
    (p.deliveries root).map Delivery.place =
      (Leaf.layout leaves).filterMap fun leaf => (leaf.value? root).map (Leaf.steps leaf.chain, ·) := by
  have blocks := realizes.blocks
  unfold deliveries Leaf.layout
  generalize p.blocks = bound at blocks ⊢
  generalize Leaf.groups leaves = groups at blocks ⊢
  induction blocks with
  | nil => rfl
  | cons first _ ih =>
    rw [List.flatMap_cons, List.flatMap_cons, List.map_append, List.filterMap_append, first.places root, ih]

/-- What a line delivers is the value of a leaf, to the marshaller that the leaf resolves to. -/
lemma Realizes.own {leaves : List Leaf} {p : LinePlan} (realizes : p.Realizes c r id leaves) {root : Record} :
    ∀ d ∈ p.deliveries root, ∃ leaf ∈ leaves, d.step.Realizes (c.name id) r leaf ∧ leaf.value? root = some d.cell := by
  intro d delivered
  obtain ⟨b, block, delivered⟩ := List.mem_flatMap.1 delivered
  obtain ⟨s, step, called⟩ := List.mem_filterMap.1 delivered
  obtain ⟨cell, value, rfl⟩ := Option.map_eq_some_iff.1 called
  obtain ⟨g, group, realized⟩ := realizes.blocks.exists_of_mem_right block
  obtain ⟨leaf, mem, bound⟩ := realized.steps.exists_of_mem_right step
  rw [bound.descriptor, leaf.descriptor_value?] at value
  exact ⟨leaf, (Leaf.layout_perm leaves).mem_iff.1 (List.mem_flatMap.2 ⟨g, group, mem⟩), bound, value⟩

/-- The values of a typed record are dispatched to marshallers of their types, each once. -/
theorem dispatches_of_compile {p : LinePlan} (compiled : LinePlan.compile c r id = .ok p) (members : c.Bound)
    (registered : r.Bound) (typed : c.IsRecord id root) : ∃ leaves, p.Dispatches c r id leaves root := by
  obtain ⟨leaves, realizes⟩ := compile_realizes compiled
  have sound : ∀ d ∈ p.deliveries root, d.Sound := fun d delivered => by
    obtain ⟨leaf, mem, bound, value⟩ := realizes.own d delivered
    have stored := realizes.walk.hasType typed.areTyped leaf mem d.cell value
    rcases bound.bound registered (realizes.walk.bound members (members id) leaf mem) with same | made
    · exact .bound (stored.site ▸ same)
    · rw [← stored.site] at made stored
      exact .rendered made (Handle.renders_of_hasRendering (Handle.bound_of_enumerizing? made).2 stored)
  refine ⟨leaves, realizes.walk, sound, realizes.own, realizes.walk.nodup_steps, ?_,
    emitBlocks_eq_deliverBlocks sound⟩
  rw [realizes.places root]
  exact (Leaf.layout_perm leaves).filterMap _

end LinePlan

end

/-! ## Lines of typed records -/

namespace Catalogue

variable {c : Catalogue} {id : Nat} {root : Record}

/-- The lines of a typed record are typed records. -/
lemma IsRecord.lines (typed : c.IsRecord id root) : ∀ line ∈ c.lines id root, c.IsRecord line.1 line.2 := by
  intro line mem
  rcases List.mem_cons.1 mem with rfl | mem
  · exact typed
  · obtain ⟨⟨member, candidate⟩, action, mem⟩ := List.mem_flatMap.1 mem
    obtain ⟨item, held, rfl⟩ := List.mem_map.1 mem
    unfold Record.candidatesAt at held
    split at held
    · rename_i site items found
      cases typed with
      | of _ candidates => exact candidates member candidate site items item action found held
    · cases held

end Catalogue

namespace Plan

/-- The values of a typed record and of its candidates are dispatched to marshallers of their types, each once, whatever
was registered, if the marshallers of members are bound to the types of their members. Writing the record is running the
marshallers on what is delivered to them. -/
theorem dispatches {c : Catalogue} {calls : List Registration} {kind : OutputKind} {id : Nat} {p : Plan}
    (compiled : Plan.compile c (.ofCalls calls) kind id = .ok p) (members : c.Bound) {root : Record}
    (typed : c.IsRecord id root) (target : LabelTarget) :
    List.Forall₂ (fun line row => row.root = line.2 ∧
        ∃ leaves, row.plan.Dispatches c (.ofCalls calls) line.1 leaves row.root)
      (c.lines id root) (p.rows root target) ∧
    ∀ context, p.emit root target context =
      deliverRows { context with multiLine := context.multiLine || p.isMultiLine } (p.rows root target) := by
  have lines : List.Forall₂ (fun line row => row.root = line.2 ∧
      ∃ leaves, row.plan.Dispatches c (.ofCalls calls) line.1 leaves row.root) (c.lines id root) (p.rows root target) := by
    have each : List.Forall₂ (· = ·) (c.lines id root) (c.lines id root) := List.forall₂_same.2 fun _ _ => rfl
    refine each.comp (forall₂_rows compiled root target) ?_
    rintro line _ mem row rfl ⟨compiled, same⟩
    have typed : c.IsRecord line.1 row.root := same ▸ typed.lines line mem
    exact ⟨same, LinePlan.dispatches_of_compile compiled members (Registry.bound_ofCalls calls) typed⟩
  refine ⟨lines, fun context => ?_⟩
  rw [emit_eq_emitRows]
  refine emitRows_eq_deliverRows (fun row mem => ?_) _
  obtain ⟨line, -, -, leaves, dispatches⟩ := lines.exists_of_mem_right mem
  exact dispatches.written

end Plan

/-! ## An example -/

namespace Shop

/-- A marshaller of texts that writes a number. -/
def counter (weight : Int) : Handle :=
  ⟨"Counter", some text, fun _ feature _ => .weighted feature.name (.ofInt _ weight) .done⟩

/-- Two registrations for texts, of which the last one counts. -/
def calls : List Registration := [⟨text, ⟨counter 1, 0, false⟩, rfl⟩, ⟨text, ⟨counter 2, 1, false⟩, rfl⟩]

/-- The plan of a shop whose texts are counted, except for the mark. -/
def counted : Plan :=
  ⟨.native,
    ⟨"Shop",
      [⟨.make none none, false, [step size "NumericMarshaller" Handle.writeNumeric,
          step price "NumericMarshaller" Handle.writeNumeric]⟩,
        ⟨.make (some "attrs") none, false, [⟨color, counter 2, .registered⟩, ⟨mark, marker, .override⟩]⟩,
        ⟨.make (some "dense") none, true, [step stock "DenseMarshaller" Handle.writeDense]⟩],
      some ⟨0, "target"⟩⟩,
    none⟩

lemma compile_counted : Plan.compile catalogue (.ofCalls calls) .native 0 = .ok counted := by
  have line : LinePlan.compile catalogue (.ofCalls calls) 0 = .ok counted.line :=
    Except.bind_eq_ok.2 ⟨_, extract_eq, Except.bind_eq_ok.2 ⟨_, groupFeatures_eq, rfl⟩⟩
  exact Except.bind_eq_ok.2 ⟨_, line, rfl⟩

lemma bound : catalogue.Bound := by
  intro id field mem attributes type handle role
  match id with
  | 0 =>
    simp only [Catalogue.fields, catalogue, List.getElem?_cons_zero, Option.map_some, Option.getD_some, List.mem_cons,
      List.not_mem_nil, or_false] at mem
    rcases mem with rfl | rfl | rfl | rfl | rfl <;> cases role
    rfl
  | 1 =>
    simp only [Catalogue.fields, catalogue, List.getElem?_cons_succ, List.getElem?_cons_zero, Option.map_some,
      Option.getD_some, List.mem_cons, List.not_mem_nil, or_false] at mem
    rcases mem with rfl | rfl <;> cases role
  | _ + 2 => cases mem

lemma isRecord : catalogue.IsRecord 0 (record (some item)) := by
  have size : catalogue.IsRecord 1 [some (.leaf ⟨4, number⟩ (.scalar (.integer 2))),
      some (.leaf ⟨5, text⟩ (.scalar (.text "dark red")))] :=
    .of_areTyped (.cons_leaf rfl trivial (.cons_leaf rfl trivial .nil)) nofun
  refine .of_areTyped (.cons (fun _ _ none => nomatch none) (.cons_leaf rfl trivial (.cons ?_
    (.cons_leaf rfl trivial (.cons_leaf rfl trivial .nil))))) nofun
  intro type cell declared held
  cases declared
  cases held
  exact @Catalogue.HasType.record _ ⟨3, ⟨"Item", .record 1⟩⟩ _ 1 rfl size

end Shop

/-- In a shop with an item, five values are delivered, two of them from the item. -/
theorem Plan.dispatches_shop :
    let root := Shop.record (some Shop.item)
    List.Forall₂ (fun line row => row.root = line.2 ∧
        ∃ leaves, row.plan.Dispatches Shop.catalogue (.ofCalls Shop.calls) line.1 leaves row.root)
      [(0, root)] (Shop.counted.rows root .none) ∧
    (Shop.counted.rows root .none).map (fun row => (row.plan.deliveries row.root).length) = [5] := by
  intro root
  obtain ⟨lines, -⟩ := dispatches Shop.compile_counted Shop.bound Shop.isRecord .none
  exact ⟨lines, by decide⟩

end FeatureLines
