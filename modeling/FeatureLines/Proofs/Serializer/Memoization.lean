import FeatureLines.Proofs.Serializer.Dispatch
import FeatureLines.Proofs.Serializer.Shared

/-!
# Schemas that keep no texts

A schema from which every wish to keep texts is taken compiles as it did, to the plan that keeps none
(`Plan.compile_forgetting`). Within one record a site stands for one text, if different values of a type are stored at
different addresses (`Record.Settled`): then it does not matter which marshaller made the text of a value first.

Main statement: `Plan.serialize_forgetting`.
-/

namespace FeatureLines

def Role.forgetting : Role → Role
  | feature attributes type override => feature { attributes with dictify := false } type override
  | role => role

def Field.forgetting (field : Field) : Field := { field with role := field.role.forgetting }

def RecordType.forgetting (type : RecordType) : RecordType := { type with fields := type.fields.map Field.forgetting }

/-- The types without texts being kept for any feature. -/
def Catalogue.forgetting (c : Catalogue) : Catalogue := c.map RecordType.forgetting

def Descriptor.forgetting (d : Descriptor) : Descriptor := { d with dictify := false }

def Group.forgetting (g : Group) : Group := { g with features := g.features.map Descriptor.forgetting }

/-- Data that is stored in a record: in its members, in the records that these hold, or in its candidates. -/
inductive Record.Stores : Record → Site → Datum → Prop
  | leaf {root : Record} {site : Site} {datum : Datum} (mem : some (.leaf site datum) ∈ root) : Stores root site datum
  | held {root fields : Record} {site place : Site} {datum : Datum} (mem : some (.record place fields) ∈ root)
      (stores : Stores fields site datum) : Stores root site datum
  | candidate {root item : Record} {items : List Record} {site place : Site} {datum : Datum}
      (mem : some (.candidates place items) ∈ root) (one : item ∈ items) (stores : Stores item site datum) :
      Stores root site datum

/-- Different values of a type are stored at different addresses, unless the type has no size; then it has one value. -/
structure Record.Settled (zeroSized : ValueType → Prop) (root : Record) : Prop where
  apart : ∀ type, ¬zeroSized type → ∀ address datum datum',
    root.Stores ⟨address, type⟩ datum → root.Stores ⟨address, type⟩ datum' → datum = datum'
  single : ∀ type, zeroSized type → ∀ address address' datum datum',
    root.Stores ⟨address, type⟩ datum → root.Stores ⟨address', type⟩ datum' → datum = datum'

/-! ## Compiling -/

/-- Whether texts are kept has no say in what a field contributes. -/
lemma Role.asMember?_forgetting (role : Role) (scope : Scope) (m : Member) :
    role.forgetting.asMember? scope m =
      (role.asMember? scope m).map fun (type, inner, leaf) => (type, inner, leaf.map Descriptor.forgetting) := by
  cases role <;> rfl

/-- Fields lead to the same record types. -/
lemma Field.edge?_forgetting (field : Field) : field.forgetting.edge? = field.edge? := by
  obtain ⟨path, isOptional, role⟩ := field
  cases role <;> rfl

/-- A member is placed the same way. -/
lemma Member.place_forgetting (m : Member) (leaf : Option Descriptor) (ds : List Descriptor) :
    m.place (leaf.map Descriptor.forgetting) (ds.map Descriptor.forgetting) = (m.place leaf ds).map Descriptor.forgetting := by
  unfold place
  rw [List.isEmpty_map]
  split
  · cases leaf <;> rfl
  · rw [List.map_map, List.map_map]
    rfl

namespace Catalogue

lemma fields_forgetting (types : Catalogue) (id : Nat) : types.forgetting.fields id =
    (types.fields id).map Field.forgetting := by
  unfold fields forgetting
  rw [List.getElem?_map]
  cases types[id]? <;> rfl

lemma name_forgetting (types : Catalogue) (id : Nat) : types.forgetting.name id = types.name id := by
  unfold name forgetting
  rw [List.getElem?_map]
  cases types[id]? <;> rfl

/-- A type has the same labels. -/
lemma labels_forgetting (c : Catalogue) (id : Nat) : c.forgetting.labels id = c.labels id := by
  have each (position : Nat) (fields : List Field) :
      placedFrom Role.isLabel position (fields.map Field.forgetting) = placedFrom Role.isLabel position fields := by
    induction fields generalizing position with
    | nil => rfl
    | cons field fields ih =>
      have same : field.forgetting.role.isLabel = field.role.isLabel := by
        cases role : field.role <;> rw [Field.forgetting, role] <;> rfl
      rw [List.map_cons, placedFrom, placedFrom, ih, same]
      rfl
  unfold labels
  rw [fields_forgetting, each]

/-- A type has the same candidates. -/
lemma actions_forgetting (c : Catalogue) (id : Nat) : c.forgetting.actions id = c.actions id := by
  have each (position : Nat) (fields : List Field) :
      actionsFrom position (fields.map Field.forgetting) = actionsFrom position fields := by
    induction fields generalizing position with
    | nil => rfl
    | cons field fields ih =>
      rw [List.map_cons, actionsFrom, actionsFrom, ih]
      refine congrArg (· ++ _) ?_
      cases role : field.role <;> simp only [Field.forgetting, role] <;> rfl
  unfold actions
  rw [fields_forgetting, each]

lemma length_forgetting (c : Catalogue) : c.forgetting.length = c.length := List.length_map _

/-- The features of a schema that keeps no texts are those of the schema, without their texts being kept. -/
lemma extractFields_forgetting (c : Catalogue) (closed : List Nat) (scope : Scope) (position : Nat) (fields : List Field) :
    c.forgetting.extractFields closed scope position (fields.map Field.forgetting) =
      (c.extractFields closed scope position fields).map (List.map Descriptor.forgetting) := by
  induction closed, scope, position, fields using extractFields.induct c with
  | case1 closed scope position =>
    rw [List.map_nil, extractFields, extractFields]
    rfl
  | case2 closed scope position field rest ihHeld ihRest =>
    have held (inner : Scope) (e : Edge) : c.forgetting.extractHeld closed inner e =
        (c.extractHeld closed inner e).map (List.map Descriptor.forgetting) := by
      unfold extractHeld
      rw [length_forgetting, fields_forgetting]
      split
      · rename_i mem
        exact ihHeld inner e.id mem
      · split <;> rfl
    have here : c.forgetting.extractField closed scope position field.forgetting =
        (c.extractField closed scope position field).map (List.map Descriptor.forgetting) := by
      unfold extractField
      rw [field.edge?_forgetting, Field.forgetting, Role.asMember?_forgetting]
      cases field.role.asMember? scope ⟨position, field.path, field.optional⟩ with
      | none => rfl
      | some member =>
        obtain ⟨type, inner, leaf⟩ := member
        have placed := fun ds => Member.place_forgetting ⟨position, field.path, field.optional⟩ leaf ds
        cases field.edge? with
        | none => exact congrArg Except.ok (placed [])
        | some e =>
          simp only [Option.map_some, held, Except.map_map]
          exact congrArg (Except.map · _) (funext placed)
    rw [List.map_cons, extractFields_cons, extractFields_cons, here, ihRest]
    cases c.extractField closed scope position field with
    | error failure => rfl
    | ok found =>
      cases c.extractFields closed scope (position + 1) rest with
      | error failure => rfl
      | ok later => exact congrArg Except.ok List.map_append.symm

/-- Extraction goes the same way through nested types, to the same failure or the same features. -/
lemma extract_forgetting (c : Catalogue) (scope : Scope) (id : Nat) :
    c.forgetting.extract scope id = (c.extract scope id).map (List.map Descriptor.forgetting) := by
  unfold extract
  rw [length_forgetting, fields_forgetting]
  exact c.extractFields_forgetting _ scope 0 _

end Catalogue

namespace Group

/-- Features fall into the same groups. -/
lemma collect_forgetting (ds : List Descriptor) :
    collect (ds.map Descriptor.forgetting) = (collect ds).map Group.forgetting := by
  have features (key : GroupKey) : (ds.map Descriptor.forgetting).filter (fun d => d.key = key) =
      (ds.filter fun d => d.key = key).map Descriptor.forgetting := List.filter_map
  rw [collect_eq, collect_eq, List.map_map, List.map_map]
  simp only [features]
  rfl

/-- A group is faulty for the same reason. -/
lemma problem?_forgetting (type : String) (all : List Group) (g : Group) :
    problem? type (all.map Group.forgetting) g.forgetting = problem? type all g := by
  unfold problem?
  simp only [forgetting, List.any_map, List.length_map, List.map_map]
  rfl

lemma sorted_forgetting (g : Group) : g.forgetting.sorted = g.sorted.forgetting := by
  let byOrder : Descriptor → Descriptor → Bool := fun a b => a.order ≤ b.order
  have features : (g.features.map Descriptor.forgetting).mergeSort byOrder =
      (g.features.mergeSort byOrder).map Descriptor.forgetting :=
    (List.map_mergeSort (s := byOrder) fun _ _ _ _ => rfl).symm
  exact congrArg (Group.mk g.key) features

end Group

/-- Grouping does not look at whether texts are kept. -/
lemma groupFeatures_forgetting (type : String) (ds : List Descriptor) :
    groupFeatures type (ds.map Descriptor.forgetting) = (groupFeatures type ds).map (List.map Group.forgetting) := by
  have search : ((Group.collect ds).map Group.forgetting).findSome?
      (Group.problem? type ((Group.collect ds).map Group.forgetting)) =
        (Group.collect ds).findSome? (Group.problem? type (Group.collect ds)) := by
    rw [List.findSome?_map]
    exact congrArg (List.findSome? · _) (funext (Group.problem?_forgetting type _))
  unfold groupFeatures
  simp only [Group.collect_forgetting, search]
  cases (Group.collect ds).findSome? (Group.problem? type (Group.collect ds)) with
  | some problem => rfl
  | none =>
    refine congrArg Except.ok ?_
    rw [List.map_map, List.map_map]
    exact List.map_congr_left fun g _ => g.sorted_forgetting

/-- The marshallers of a group resolve alike. -/
lemma Block.ofGroup_forgetting (type : String) (r : Registry) (g : Group) :
    Block.ofGroup type r g.forgetting = (Block.ofGroup type r g).map Block.forgetting := by
  let bound (d : Descriptor) : Except SchemaError Step := do
    let found ← resolve type r d
    return ⟨d, found.1, found.2⟩
  have each (d : Descriptor) : bound d.forgetting = (bound d).map Step.forgetting := by
    have same : resolve type r d.forgetting = resolve type r d := rfl
    simp only [bound, same]
    cases resolve type r d <;> rfl
  have steps := Except.mapM_map_eq each g.features
  change ((g.features.map Descriptor.forgetting).mapM bound >>= _) = (g.features.mapM bound >>= _).map _
  rw [steps]
  cases g.features.mapM bound <;> rfl

/-- A type whose texts are not kept is compiled to the lines without kept texts, or fails the same way. -/
lemma LinePlan.compile_forgetting (c : Catalogue) (r : Registry) (id : Nat) :
    LinePlan.compile c.forgetting r id = (LinePlan.compile c r id).map LinePlan.forgetting := by
  unfold LinePlan.compile
  rw [c.extract_forgetting, c.name_forgetting, c.labels_forgetting]
  cases c.extract .root id with
  | error failure => rfl
  | ok ds =>
    change (groupFeatures (c.name id) (ds.map Descriptor.forgetting) >>= _) = (groupFeatures (c.name id) ds >>= _).map _
    rw [groupFeatures_forgetting]
    cases groupFeatures (c.name id) ds with
    | error failure => rfl
    | ok gs =>
      change ((gs.map Group.forgetting).mapM (Block.ofGroup (c.name id) r) >>= _) =
        (gs.mapM (Block.ofGroup (c.name id) r) >>= _).map _
      rw [Except.mapM_map_eq (Block.ofGroup_forgetting (c.name id) r)]
      cases gs.mapM (Block.ofGroup (c.name id) r) with
      | error failure => rfl
      | ok blocks =>
        cases c.labels id with
        | nil => rfl
        | cons label more => cases more <;> rfl

/-- A schema without texts being kept compiles to the plan that keeps none, or fails as the schema does. -/
theorem Plan.compile_forgetting (c : Catalogue) (r : Registry) (kind : OutputKind) (id : Nat) :
    Plan.compile c.forgetting r kind id = (Plan.compile c r kind id).map Plan.forgetting := by
  have member : actionMember c.forgetting id = actionMember c id := by
    unfold actionMember
    simp only [c.actions_forgetting, c.name_forgetting]
  have put (place : Placed) (line : LinePlan) : ActionPlan.ofCandidate place line.forgetting =
      (ActionPlan.ofCandidate place line).map ActionPlan.forgetting := by
    unfold ActionPlan.ofCandidate
    simp only [LinePlan.forgetting, List.isEmpty_map]
    split <;> rfl
  unfold compile
  rw [LinePlan.compile_forgetting, member]
  cases LinePlan.compile c r id with
  | error failure => rfl
  | ok line =>
    cases actionMember c id with
    | error failure => rfl
    | ok action =>
      cases action with
      | none => rfl
      | some action =>
        obtain ⟨place, candidate⟩ := action
        change (LinePlan.compile c.forgetting r candidate >>= fun line => ActionPlan.ofCandidate place line >>= _) =
          (LinePlan.compile c r candidate >>= fun line => ActionPlan.ofCandidate place line >>= _).map _
        rw [LinePlan.compile_forgetting]
        cases LinePlan.compile c r candidate with
        | error failure => rfl
        | ok inner =>
          change (ActionPlan.ofCandidate place inner.forgetting >>= _) = (ActionPlan.ofCandidate place inner >>= _).map _
          rw [put]
          cases ActionPlan.ofCandidate place inner <;> rfl

/-! ## Texts within a record -/

namespace Record

variable {root : Record} {site : Site} {datum : Datum}

/-- A field of a record is one of its cells. -/
lemma mem_of_field? {position : Nat} {cell : Cell} (found : root.field? position = some cell) : some cell ∈ root :=
  List.mem_of_getElem? (Option.join_eq_some_iff.1 found)

/-- What a chain of fields leads to is stored in the record. -/
lemma stores_of_follow? {steps : List Nat} (found : root.follow? steps = some (.leaf site datum)) :
    root.Stores site datum := by
  induction steps generalizing root with
  | nil => cases found
  | cons position rest ih =>
    cases rest with
    | nil => exact .leaf (mem_of_field? found)
    | cons next rest =>
      rw [follow?_cons root position (List.cons_ne_nil _ _)] at found
      split at found
      · rename_i place fields held
        exact .held (mem_of_field? held) (ih found)
      · cases found

/-- What a line of a record stores is stored in the record. -/
lemma stores_of_mem_lines {c : Catalogue} {id : Nat} {line : Nat × Record} (mem : line ∈ c.lines id root)
    (stores : line.2.Stores site datum) : root.Stores site datum := by
  rcases List.mem_cons.1 mem with rfl | mem
  · exact stores
  · obtain ⟨⟨member, candidate⟩, -, mem⟩ := List.mem_flatMap.1 mem
    obtain ⟨item, one, rfl⟩ := List.mem_map.1 mem
    unfold candidatesAt at one
    split at one
    · rename_i place items held
      exact .candidate (mem_of_field? held) one stores
    · cases one

/-- In a settled record one value is stored at a site. -/
lemma Settled.unique {zeroSized : ValueType → Prop} (settled : root.Settled zeroSized) {datum' : Datum}
    (stores : root.Stores site datum) (stores' : root.Stores site datum') : datum = datum' := by
  by_cases sized : zeroSized site.type
  · exact settled.single site.type sized _ _ _ _ stores stores'
  · exact settled.apart site.type sized _ _ _ stores stores'

/-- In a settled record a site stands for one text. -/
lemma Settled.exists_texts {zeroSized : ValueType → Prop} (settled : root.Settled zeroSized) :
    ∃ texts : Site → String, ∀ site datum, root.Stores site datum →
      (Handle.renderingAs site.type (.leaf site datum)).text = texts site := by
  classical
  refine ⟨fun site => if stored : ∃ datum, root.Stores site datum then
    (Handle.renderingAs site.type (.leaf site stored.choose)).text else "", fun site datum stores => ?_⟩
  have stored : ∃ datum, root.Stores site datum := ⟨datum, stores⟩
  simp only
  rw [dif_pos stored, settled.unique stores stored.choose_spec]

end Record

variable {c : Catalogue} {r : Registry} {kind : OutputKind} {id : Nat} {p : Plan} {root : Record} {texts : Site → String}

/-- A value of a type with texts is a leaf. -/
lemma Catalogue.HasType.eq_leaf {type : ValueType} {cell : Cell} (rendering : Handle.hasRendering type = true)
    (typed : c.HasType type cell) : ∃ site datum, cell = .leaf site datum ∧ site.type = type := by
  have own := typed.site
  have renders := Handle.renders_of_hasRendering rendering typed
  generalize Handle.renderingAs type cell = text at renders
  cases renders with
  | scalar => exact ⟨_, _, rfl, own⟩
  | variant => exact ⟨_, _, rfl, own⟩

/-- Every value that is written for a typed record has the text of its site, if that is so for what the record stores. -/
lemma Plan.tells_of_stores (compiled : Plan.compile c r kind id = .ok p) (typed : c.IsRecord id root)
    (told : ∀ site datum, root.Stores site datum → (Handle.renderingAs site.type (.leaf site datum)).text = texts site)
    (target : LabelTarget) : ∀ row ∈ p.rows root target, row.Tells texts := by
  intro row mem b block s step cell value rendering
  obtain ⟨line, own, plan, same⟩ := (forall₂_rows compiled root target).exists_of_mem_right mem
  obtain ⟨leaves, realizes⟩ := LinePlan.compile_realizes plan
  obtain ⟨g, group, realized⟩ := realizes.blocks.exists_of_mem_right block
  obtain ⟨leaf, inGroup, bound⟩ := realized.steps.exists_of_mem_right step
  have listed : leaf ∈ leaves := (Leaf.layout_perm leaves).mem_iff.1 (List.mem_flatMap.2 ⟨g, group, inGroup⟩)
  rw [bound.descriptor] at rendering value ⊢
  rw [leaf.descriptor_value?, same] at value
  have stored := realizes.walk.hasType (typed.lines line own).areTyped leaf listed cell value
  obtain ⟨site, datum, rfl, type⟩ := stored.eq_leaf rendering
  have here := told site datum (Record.stores_of_mem_lines own (Record.stores_of_follow? value))
  rw [type] at here
  exact here

/-- Keeping texts changes nothing within a serialization. A schema that asks for no texts to be kept compiles to the same
plan but for that, or fails in the same way. With built-in marshallers, a typed record whose values have addresses of
their own is serialized to the same lines and text, or refused in the same way, whether texts are kept for the
serialization, for some of the features, or not at all. -/
theorem Plan.serialize_forgetting (c : Catalogue) (r : Registry) (kind : OutputKind) (id : Nat) :
    Plan.compile c.forgetting r kind id = (Plan.compile c r kind id).map Plan.forgetting ∧
    ∀ p, Plan.compile c r kind id = .ok p → (∀ b ∈ p.blocks, ∀ s ∈ b.steps, s.isCustom = false) →
      ∀ zeroSized root, c.IsRecord id root → root.Settled zeroSized → ∀ engine options default target,
        (p.serialize engine options default root target).result =
          (p.forgetting.serialize engine { options with dictify := false } default root target).result := by
  refine ⟨compile_forgetting c r kind id,
    fun p compiled builtIn zeroSized root typed settled engine options default target => ?_⟩
  obtain ⟨texts, told⟩ := settled.exists_texts
  have told : ∀ row ∈ p.rows root target, row.KeepsTold texts (options.dictify || false) := fun row mem =>
    (tells_of_stores compiled typed told target row mem).keepsTold
      (fun b block => realizes_of_mem_blocks compiled (mem_blocks_of_mem_rows mem block)) _
  have shown : Context.IsPlain fun c => { c with text := decide (p.kind = .nativeAndText) } :=
    ⟨fun _ => rfl, fun _ => rfl, fun _ => rfl⟩
  have start := (Context.twins_new texts engine options default).step shown
  obtain ⟨twins, failure⟩ := serializeInto_twins compiled builtIn told start
  have kind : p.forgetting.kind = p.kind := rfl
  unfold serialize
  rw [kind]
  simp only
  rw [← failure]
  cases (p.serializeInto root target _).failure with
  | some cause => rfl
  | none => exact congrArg Except.ok twins.finish

namespace Poster

def text : ValueType := ⟨"String", .scalar .displayed⟩

/-- A poster declares its title four times, as a text, as words, and as a token; its shows have the title too. -/
def catalogue : Catalogue :=
  [⟨"Poster", [⟨"title", false, .feature { dictify := true } text none⟩,
      ⟨"words", false, .feature { strings := some .split } text none⟩,
      ⟨"plain", false, .feature { strings := some .escape, dictify := true } text none⟩,
      ⟨"token", false, .feature { enumerize := true, dictify := true } text none⟩, ⟨"shows", false, .actions 1⟩]⟩,
    ⟨"Show", [⟨"of", false, .feature { enumerize := true } text none⟩, ⟨"place", false, .feature {} text none⟩]⟩]

def title : Descriptor := .ofFeature ⟨0, "title", false⟩ { dictify := true } .root text none
def words : Descriptor := .ofFeature ⟨1, "words", false⟩ { strings := some .split } .root text none
def plain : Descriptor := .ofFeature ⟨2, "plain", false⟩ { strings := some .escape, dictify := true } .root text none
def token : Descriptor := .ofFeature ⟨3, "token", false⟩ { enumerize := true, dictify := true } .root text none
def subject : Descriptor := .ofFeature ⟨0, "of", false⟩ { enumerize := true } .root text none
def place : Descriptor := .ofFeature ⟨1, "place", false⟩ {} .root text none

def displayed (d : Descriptor) : Step :=
  ⟨d, ⟨"featwire::marshal::DisplayMarshaller", some text, fun _ => Handle.writeDisplay⟩, .builtIn⟩

def enumerized (d : Descriptor) : Step :=
  ⟨d, ⟨"featwire::marshal::EnumerizeMarshaller", none, fun _ feature cell =>
    .remember feature cell.site (Handle.renderingAs text cell) fun made =>
      .indicator (feature.name ++ Text.escape made) .done⟩, .enumerized⟩

/-- What posters are compiled to. -/
def plan : Plan :=
  ⟨.nativeAndText,
    ⟨"Poster", [⟨.make none none, false, [displayed title, displayed words, displayed plain, enumerized token]⟩], none⟩,
    some ⟨⟨4, "shows"⟩, ⟨"Show", [⟨.make none none, false, [enumerized subject, displayed place]⟩], none⟩⟩⟩

lemma compile_eq : Plan.compile catalogue .empty .nativeAndText 0 = .ok plan := by
  have extracted : catalogue.extract .root 0 = .ok [title, words, plain, token] := by
    simp [Catalogue.extract, Catalogue.extractFields, Catalogue.fields, catalogue, Role.asMember?, Except.bind, Except.map,
      List.range, List.range.loop, title, words, plain, token, text, Scope.enter, Scope.root, Descriptor.ofFeature]
  have grouped : groupFeatures "Poster" [title, words, plain, token] =
      .ok [⟨⟨none, none, false⟩, [title, words, plain, token]⟩] := by
    simp [groupFeatures, Group.collect, Group.add, Descriptor.key, Group.problem?, Group.sorted, List.mergeSort, title, words,
      plain, token, text, Descriptor.ofFeature, Descriptor.isDense, Descriptor.shape, Form.shape, Scope.root]
  have line : LinePlan.compile catalogue .empty 0 = .ok plan.line :=
    Except.bind_eq_ok.2 ⟨_, extracted, Except.bind_eq_ok.2 ⟨_, grouped, rfl⟩⟩
  have extractedShow : catalogue.extract .root 1 = .ok [subject, place] := by
    simp [Catalogue.extract, Catalogue.extractFields, Catalogue.fields, catalogue, Role.asMember?, Except.bind, Except.map,
      List.range, List.range.loop, subject, place, text, Scope.enter, Scope.root, Descriptor.ofFeature]
  have groupedShow : groupFeatures "Show" [subject, place] = .ok [⟨⟨none, none, false⟩, [subject, place]⟩] := by
    simp [groupFeatures, Group.collect, Group.add, Descriptor.key, Group.problem?, Group.sorted, List.mergeSort, subject,
      place, text, Descriptor.ofFeature, Descriptor.isDense, Descriptor.shape, Form.shape, Scope.root]
  have candidate : LinePlan.compile catalogue .empty 1 =
      .ok ⟨"Show", [⟨.make none none, false, [enumerized subject, displayed place]⟩], none⟩ :=
    Except.bind_eq_ok.2 ⟨_, extractedShow, Except.bind_eq_ok.2 ⟨_, groupedShow, rfl⟩⟩
  exact Except.bind_eq_ok.2 ⟨_, line, Except.bind_eq_ok.2 ⟨some (⟨4, "shows"⟩, 1), rfl,
    Except.bind_eq_ok.2 ⟨_, candidate, rfl⟩⟩⟩

/-- A text at an address. -/
def cell (address : Nat) (value : String) : Option Cell := some (.leaf ⟨address, text⟩ (.scalar (.text value)))

/-- The title is stored once, for the poster and for both of its shows. -/
def shows : List Record := [[cell 0 "Old Town", cell 1 "Arena"], [cell 0 "Old Town", cell 2 "Town Hall"]]

def record : Record :=
  [cell 0 "Old Town", cell 0 "Old Town", cell 0 "Old Town", cell 0 "Old Town",
    some (.candidates ⟨3, ⟨"Vec<Show>", .candidates 1⟩⟩ shows)]

lemma isRecord : catalogue.IsRecord 0 record := by
  have typed (place : Nat) (value : String) : catalogue.IsRecord 1 [cell 0 "Old Town", cell place value] :=
    .of_areTyped (.cons_leaf rfl trivial (.cons_leaf rfl trivial .nil)) nofun
  refine .of_areTyped (.cons_leaf rfl trivial (.cons_leaf rfl trivial (.cons_leaf rfl trivial (.cons_leaf rfl trivial
    (.cons (fun _ _ none => nomatch none) .nil))))) fun member candidate site items item action held one => ?_
  cases List.mem_singleton.1 action
  cases held
  simp only [shows, List.mem_cons, List.not_mem_nil, or_false] at one
  rcases one with rfl | rfl
  · exact typed 1 "Arena"
  · exact typed 2 "Town Hall"

/-- Each of the three texts of a poster has its own address. -/
lemma settled : record.Settled fun _ => False := by
  let datum (address : Nat) : Datum := .scalar (.text (["Old Town", "Arena", "Town Hall"][address]?.getD ""))
  have shown {item : Record} (one : item ∈ shows) {site : Site} {stored : Datum} (stores : item.Stores site stored) :
      stored = datum site.address := by
    simp only [shows, List.mem_cons, List.not_mem_nil, or_false] at one
    rcases one with rfl | rfl <;> cases stores with
    | leaf mem =>
      simp only [cell, List.mem_cons, List.not_mem_nil, or_false, Option.some.injEq, Cell.leaf.injEq] at mem
      rcases mem with ⟨rfl, rfl⟩ | ⟨rfl, rfl⟩ <;> rfl
    | held mem => simp [cell] at mem
    | candidate mem => simp [cell] at mem
  have all {site : Site} {stored : Datum} (stores : record.Stores site stored) : stored = datum site.address := by
    cases stores with
    | leaf mem =>
      simp only [record, cell, List.mem_cons, List.not_mem_nil, or_false, Option.some.injEq, Cell.leaf.injEq, reduceCtorEq,
        or_self] at mem
      rw [mem.1, mem.2]
      rfl
    | held mem => simp [record, cell] at mem
    | candidate mem one stores =>
      simp only [record, cell, List.mem_cons, List.not_mem_nil, or_false, Option.some.injEq, Cell.candidates.injEq,
        reduceCtorEq, false_or] at mem
      exact shown (mem.2 ▸ one) stores
  refine ⟨fun type _ address d d' stores stores' => ?_, fun type none => none.elim⟩
  rw [all stores, all stores']

end Poster

open Poster in
/-- The title of a poster is kept for three features of its own and for one of each of its shows. The poster is written like
one whose texts are not kept. -/
theorem Plan.serialize_forgetting_poster :
    let options : Options := { text := true, dictify := true }
    let kept := (plan.serialize (.reference 0) options .compact record .none).result
    Plan.compile catalogue.forgetting .empty .nativeAndText 0 = .ok plan.forgetting ∧
      kept = (plan.forgetting.serialize (.reference 0) { options with dictify := false } .compact record .none).result ∧
      kept.toOption.bind Output.text = some ("shared | titleOld_Town Old Town Old_Town tokenOld_Town\n" ++
        "| ofOld_Town placeArena\n| ofOld_Town placeTown_Hall") := by
  intro options kept
  obtain ⟨compiled, all⟩ := serialize_forgetting catalogue .empty .nativeAndText 0
  rw [compile_eq] at compiled
  have builtIn : ∀ b ∈ plan.blocks, ∀ s ∈ b.steps, s.isCustom = false := by decide +kernel
  exact ⟨compiled, all plan compile_eq builtIn _ record isRecord settled _ options _ _, by decide +kernel⟩

end FeatureLines
