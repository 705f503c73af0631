import FeatureLines.Proofs.Marshal.BuiltIn
import FeatureLines.Proofs.Schema.Grouping
import FeatureLines.Serializer.Plan

/-!
# What a plan consists of

The inversion of compiling: a plan has a block for every group of leaves of a walk over the record type, in order, and a
block has a step for every leaf, bound to the marshaller that the leaf resolves to (`LinePlan.compile_realizes`). The
candidates of a plan are compiled in the same way (`Plan.compile_spec`).
-/

namespace FeatureLines

/-- Where the marshaller of a feature comes from: its member, the registry for its type, or the shape of its type. -/
lemma resolve_eq_ok {type : String} {r : Registry} {d : Descriptor} {h : Handle} {source : Resolution}
    (ok : resolve type r d = .ok (h, source)) :
    (source = .override ∧ d.override = some h) ∨
      (source = .registered ∧ d.override = none ∧ r.get? d.type = some h) ∨
      (source = .enumerized ∧ d.override = none ∧ r.get? d.type = none ∧ d.enumerize = true ∧
        Handle.enumerizing? d.type = some h) ∨
      (source = .builtIn ∧ d.override = none ∧ r.get? d.type = none ∧ d.enumerize = false ∧
        Handle.builtIn? d.type = some h) := by
  unfold resolve at ok
  split at ok
  · rename_i own
    cases ok
    exact .inl ⟨rfl, own⟩
  · rename_i own
    split at ok
    · rename_i registered
      cases ok
      exact .inr (.inl ⟨rfl, own, registered⟩)
    · rename_i registered
      simp only at ok
      split at ok
      · rename_i found
        cases ok
        split at found
        · rename_i enumerize
          obtain ⟨handle, shaped, same⟩ := Option.map_eq_some_iff.1 found
          cases same
          exact .inr (.inr (.inl ⟨rfl, own, registered, enumerize, shaped⟩))
        · rename_i enumerize
          obtain ⟨handle, shaped, same⟩ := Option.map_eq_some_iff.1 found
          cases same
          exact .inr (.inr (.inr ⟨rfl, own, registered, by simpa using enumerize, shaped⟩))
      · cases ok

/-- A step writes a leaf with the marshaller that the leaf resolves to. -/
structure Step.Realizes (type : String) (r : Registry) (leaf : Leaf) (s : Step) : Prop where
  descriptor : s.descriptor = leaf.descriptor
  resolved : resolve type r leaf.descriptor = .ok (s.handle, s.resolution)

/-- The marshaller of a step comes from the caller. -/
def Step.isCustom (s : Step) : Bool :=
  match s.resolution with
  | .override => true
  | .registered => true
  | _ => false

/-- A marshaller that does not come from the caller is the enumerizing or the built-in one for the type. -/
lemma Step.Realizes.handle_eq {type : String} {r : Registry} {leaf : Leaf} {s : Step} (realizes : s.Realizes type r leaf)
    (builtIn : s.isCustom = false) :
    Handle.enumerizing? leaf.descriptor.type = some s.handle ∨ Handle.builtIn? leaf.descriptor.type = some s.handle := by
  unfold isCustom at builtIn
  rcases resolve_eq_ok realizes.resolved with ⟨source, -⟩ | ⟨source, -, -⟩ | ⟨-, -, -, -, found⟩ | ⟨-, -, -, -, found⟩
  · rw [source] at builtIn
    cases builtIn
  · rw [source] at builtIn
    cases builtIn
  · exact .inl found
  · exact .inr found

/-- A marshaller that does not come from the caller writes what is ordinary, for whichever feature. -/
lemma Step.Realizes.ordinary_for {type : String} {r : Registry} {leaf : Leaf} {s : Step}
    (realizes : s.Realizes type r leaf) (builtIn : s.isCustom = false) (feature : Feature) (space : Namespace)
    (cell : Cell) : (s.handle.write space feature cell).Ordinary feature := by
  rcases realizes.handle_eq builtIn with found | found
  · exact Handle.ordinary_enumerizing found feature space cell
  · exact Handle.ordinary_builtIn found feature space cell

/-- A step whose marshaller does not come from the caller writes what is ordinary. -/
lemma Step.Realizes.ordinary {type : String} {r : Registry} {leaf : Leaf} {s : Step} (realizes : s.Realizes type r leaf)
    (builtIn : s.isCustom = false) (space : Namespace) (cell : Cell) :
    (s.handle.write space s.descriptor.feature cell).Ordinary s.descriptor.feature :=
  realizes.ordinary_for builtIn s.descriptor.feature space cell

/-- A block writes a group of leaves. -/
structure Block.Realizes (type : String) (r : Registry) (g : LeafGroup) (b : Block) : Prop where
  runtime : b.runtime = g.space
  dense : b.dense = g.key.dense
  steps : List.Forall₂ (Step.Realizes type r) g.leaves b.steps

variable {c : Catalogue} {r : Registry} {id : Nat}

/-- A group of features is bound feature by feature. -/
lemma Block.ofGroup_realizes {type : String} {g : LeafGroup} {b : Block}
    (ok : Block.ofGroup type r g.described = .ok b) : b.Realizes type r g := by
  obtain ⟨steps, bound, done⟩ := Except.bind_eq_ok.1 ok
  cases done
  refine ⟨rfl, rfl, ?_⟩
  have each := Except.mapM_eq_ok.1 bound
  rw [LeafGroup.described, List.forall₂_map_left_iff] at each
  refine each.imp fun leaf step ok => ?_
  obtain ⟨⟨handle, resolution⟩, found, done⟩ := Except.bind_eq_ok.1 ok
  cases done
  exact ⟨rfl, found⟩

/-- What is compiled for the lines of a record type. -/
structure LinePlan.Realizes (c : Catalogue) (r : Registry) (id : Nat) (leaves : List Leaf) (p : LinePlan) : Prop where
  typeName : p.typeName = c.name id
  walk : c.Walk .root 0 (c.fields id) leaves
  blocks : List.Forall₂ (Block.Realizes (c.name id) r) (Leaf.groups leaves) p.blocks
  label : p.label = (c.labels id).head? ∧ (c.labels id).length ≤ 1

/-- A line plan has a block for every group of leaves of a walk. -/
theorem LinePlan.compile_realizes {p : LinePlan} (ok : LinePlan.compile c r id = .ok p) :
    ∃ leaves, p.Realizes c r id leaves := by
  obtain ⟨ds, extracted, ok⟩ := Except.bind_eq_ok.1 ok
  obtain ⟨leaves, walk, rfl⟩ := Catalogue.extract_eq_walk extracted
  obtain ⟨gs, grouped, bindings⟩ := Except.bind_eq_ok.1 ok
  obtain ⟨blocks, bound, labelled⟩ := Except.bind_eq_ok.1 bindings
  rw [groupFeatures_eq_groups grouped] at bound
  have each := Except.mapM_eq_ok.1 bound
  rw [List.forall₂_map_left_iff] at each
  have realized := each.imp fun _ _ => Block.ofGroup_realizes
  refine ⟨leaves, ?_⟩
  split at labelled
  · rename_i labels
    cases labelled
    exact ⟨rfl, walk, realized, by simp [labels]⟩
  · rename_i labels
    cases labelled
    exact ⟨rfl, walk, realized, by simp [labels]⟩
  · cases labelled

namespace Plan

/-- What a plan is compiled from: its own record type and, with candidates, the one member and the type of those. -/
theorem compile_spec {kind : OutputKind} {p : Plan} (ok : Plan.compile c r kind id = .ok p) :
    p.kind = kind ∧ LinePlan.compile c r id = .ok p.line ∧
      ((c.actions id = [] ∧ p.actions = none) ∨
        ∃ member candidate actions, c.actions id = [(member, candidate)] ∧ c.actions candidate = [] ∧
          p.actions = some actions ∧ actions.member = member ∧ LinePlan.compile c r candidate = .ok actions.candidate ∧
          actions.candidate.blocks ≠ []) := by
  obtain ⟨line, compiled, ok⟩ := Except.bind_eq_ok.1 ok
  obtain ⟨found, member, ok⟩ := Except.bind_eq_ok.1 ok
  unfold actionMember at member
  split at member
  · rename_i none
    cases member
    cases ok
    exact ⟨rfl, compiled, .inl ⟨none, rfl⟩⟩
  · rename_i place candidate one
    split at member
    · rename_i leaf
      cases member
      obtain ⟨inner, compiledInner, ok⟩ := Except.bind_eq_ok.1 ok
      obtain ⟨actions, put, ok⟩ := Except.bind_eq_ok.1 ok
      cases ok
      unfold ActionPlan.ofCandidate at put
      split at put
      · cases put
      · rename_i some_blocks
        cases put
        exact ⟨rfl, compiled, .inr ⟨place, candidate, _, one, by simpa using leaf, rfl, rfl, compiledInner,
          by simpa using some_blocks⟩⟩
    · cases member
  · cases member

def blocks (p : Plan) : List Block := p.line.blocks ++ (p.actions.map fun actions => actions.candidate.blocks).getD []

/-- Every block of a plan writes a group of leaves. -/
lemma realizes_of_mem_blocks {kind : OutputKind} {p : Plan} (ok : Plan.compile c r kind id = .ok p) {b : Block}
    (mem : b ∈ p.blocks) : ∃ type g, b.Realizes type r g := by
  have ofLine {id : Nat} {line : LinePlan} (compiled : LinePlan.compile c r id = .ok line) (mem : b ∈ line.blocks) :
      ∃ type g, b.Realizes type r g := by
    obtain ⟨leaves, realizes⟩ := LinePlan.compile_realizes compiled
    obtain ⟨g, -, found⟩ := realizes.blocks.exists_of_mem_right mem
    exact ⟨_, g, found⟩
  obtain ⟨-, compiled, candidates⟩ := compile_spec ok
  rcases List.mem_append.1 mem with own | others
  · exact ofLine compiled own
  · rcases candidates with ⟨-, none⟩ | ⟨_, _, actions, -, -, some, -, compiledInner, -⟩
    · rw [none] at others
      cases others
    · rw [some] at others
      exact ofLine compiledInner others

/-- In a plan, every marshaller that does not come from the caller writes what is ordinary. -/
lemma ordinary_of_compile {kind : OutputKind} {p : Plan} (ok : Plan.compile c r kind id = .ok p) {b : Block}
    (mem : b ∈ p.blocks) {s : Step} (step : s ∈ b.steps) (builtIn : s.isCustom = false) (cell : Cell) :
    (s.handle.write b.runtime s.descriptor.feature cell).Ordinary s.descriptor.feature := by
  obtain ⟨type, g, realizes⟩ := realizes_of_mem_blocks ok mem
  obtain ⟨leaf, -, bound⟩ := realizes.steps.exists_of_mem_right step
  exact bound.ordinary builtIn b.runtime cell

end Plan

/-! ## An example -/

namespace Shop

def number : ValueType := ⟨"f64", .scalar .numeric⟩
def text : ValueType := ⟨"String", .scalar .displayed⟩
def numbers : ValueType := ⟨"Vec<f64>", .vector .numeric⟩

/-- A marshaller of the caller's own. -/
def marker : Handle := ⟨"Marker", some text, fun _ _ _ => .weighted "a:b" (.one _) .done⟩

/-- A shop with a label, a price, an item that may be missing, a dense vector, and a mark. -/
def catalogue : Catalogue :=
  [⟨"Shop", [⟨"target", false, .label⟩, ⟨"price", false, .feature { order := some 1 } number none⟩,
      ⟨"item", true, .nested ⟨"Item", .record 1⟩⟩,
      ⟨"stock", false, .feature { namespaceName := some "dense", addAnchor := true } numbers none⟩,
      ⟨"mark", false, .feature { namespaceName := some "attrs" } text (some marker)⟩]⟩,
    ⟨"Item", [⟨"size", false, .feature {} number none⟩,
      ⟨"color", false, .feature { namespaceName := some "attrs" } text none⟩]⟩]

def price : Descriptor := .ofFeature ⟨1, "price", false⟩ { order := some 1 } .root number none
def size : Descriptor := (Descriptor.ofFeature ⟨0, "size", false⟩ {} .root number none).below ⟨2, "item", true⟩
def color : Descriptor :=
  (Descriptor.ofFeature ⟨1, "color", false⟩ {} ⟨some "attrs", none⟩ text none).below ⟨2, "item", true⟩
def stock : Descriptor := .ofFeature ⟨3, "stock", false⟩ { addAnchor := true } ⟨some "dense", none⟩ numbers none

def mark : Descriptor := .ofFeature ⟨4, "mark", false⟩ {} ⟨some "attrs", none⟩ text (some marker)

def step (d : Descriptor) (marshaller : String) (write : Feature → Cell → Writing) : Step :=
  ⟨d, ⟨"featwire::marshal::" ++ marshaller, some d.type, fun _ => write⟩, .builtIn⟩

/-- The plan of a shop: the size comes before the price, which declares a later place. -/
def plan (kind : OutputKind) : Plan :=
  ⟨kind,
    ⟨"Shop",
      [⟨.make none none, false, [step size "NumericMarshaller" Handle.writeNumeric,
          step price "NumericMarshaller" Handle.writeNumeric]⟩,
        ⟨.make (some "attrs") none, false, [step color "DisplayMarshaller" Handle.writeDisplay, ⟨mark, marker, .override⟩]⟩,
        ⟨.make (some "dense") none, true, [step stock "DenseMarshaller" Handle.writeDense]⟩],
      some ⟨0, "target"⟩⟩,
    none⟩

/-- A shop whose item may be missing. -/
def record (item : Option Cell) : Record :=
  [some (.leaf ⟨0, ⟨"SimpleLabel", .label⟩⟩ (.label (.simple (.one _) none))),
    some (.leaf ⟨1, number⟩ (.scalar (.integer 3))), item,
    some (.leaf ⟨2, numbers⟩ (.items [.integer 5, .integer 0, .integer 7])),
    some (.leaf ⟨6, text⟩ (.scalar (.text "sale")))]

def item : Cell :=
  .record ⟨3, ⟨"Item", .record 1⟩⟩
    [some (.leaf ⟨4, number⟩ (.scalar (.integer 2))), some (.leaf ⟨5, text⟩ (.scalar (.text "dark red")))]

lemma extract_eq : catalogue.extract .root 0 = .ok [price, size, color, stock, mark] := by
  simp [Catalogue.extract, Catalogue.extractFields, Catalogue.fields, catalogue, Role.asMember?, Except.bind,
    Except.map, List.range, List.range.loop, price, size, color, stock, mark, number, text, numbers, Scope.enter, Scope.root,
    Descriptor.ofFeature]

lemma groupFeatures_eq : groupFeatures "Shop" [price, size, color, stock, mark] =
    .ok [⟨⟨none, none, false⟩, [size, price]⟩, ⟨⟨some "attrs", none, false⟩, [color, mark]⟩,
      ⟨⟨some "dense", none, true⟩, [stock]⟩] := by
  simp [groupFeatures, Group.collect, Group.add, Descriptor.key, Group.problem?, Group.sorted, List.mergeSort, price,
    size, color, stock, mark, Descriptor.ofFeature, Descriptor.below, Descriptor.isDense, Descriptor.shape, number, text,
    numbers, Form.shape, Scope.root]

lemma compile_eq (kind : OutputKind) : Plan.compile catalogue .empty kind 0 = .ok (plan kind) := by
  have line : LinePlan.compile catalogue .empty 0 = .ok (plan kind).line :=
    Except.bind_eq_ok.2 ⟨_, extract_eq, Except.bind_eq_ok.2 ⟨_, groupFeatures_eq, rfl⟩⟩
  exact Except.bind_eq_ok.2 ⟨_, line, rfl⟩

end Shop

end FeatureLines
