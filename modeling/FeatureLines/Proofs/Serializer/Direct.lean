import FeatureLines.Proofs.Marshal.Features
import FeatureLines.Proofs.Schema.Presence
import FeatureLines.Proofs.Serializer.Rows

/-!
# Serialization as a walk

What a compiled plan writes for a record, read off the schema without the plan: the leaves of a walk, in groups, each with
the features that its marshaller writes for its value alone (`Leaf.namespaces`). The way there is the line that a row comes
to (`Row.line`), which holds what its blocks have written (`LinePlan.written`).

Main statement: `Plan.serialize_eq_walk`.
-/

namespace FeatureLines

/-! ## The line of a row -/

namespace Step

/-- The features that a step writes, when every text is made anew. -/
def written (engine : Engine) (text : Bool) (space : Namespace) (root : Record) (s : Step) : List HashedFeature :=
  match s.descriptor.value? root with
  | some cell => (s.handle.write space s.descriptor.feature cell).features engine text (engine.hashSpace space.fullName)
  | none => []

/-- A step keeps no text, whatever the value. -/
def Forgets (engine : Engine) (text : Bool) (space : Namespace) (s : Step) : Prop :=
  ∀ cell, (s.handle.write space s.descriptor.feature cell).Forgets engine text (engine.hashSpace space.fullName)

end Step

/-- The namespace with some features; without features there is none. -/
def Namespace.holding (engine : Engine) (space : Namespace) (features : List HashedFeature) : List HashedNamespace :=
  if features.isEmpty then [] else [⟨space.index, engine.hashSpace space.fullName, features⟩]

/-- The namespaces that a block writes: one or none. -/
def Block.written (engine : Engine) (text : Bool) (root : Record) (b : Block) : List HashedNamespace :=
  b.runtime.holding engine (b.steps.flatMap (Step.written engine text b.runtime root))

def LinePlan.written (engine : Engine) (text : Bool) (root : Record) (p : LinePlan) : List HashedNamespace :=
  p.blocks.flatMap (Block.written engine text root)

namespace Row

def label (engine : Engine) (row : Row) : Except LabelError (Option ParsedLabel) :=
  match row.head with
  | none => .ok engine.newExample.label
  | some text => (engine.readLabel text.toList).map some

/-- The line of a row, if its label is accepted. -/
def line (engine : Engine) (text : Bool) (row : Row) : Except LabelError Example :=
  (row.label engine).map fun label =>
    ⟨label, row.plan.written engine text row.root, engine.newExample.leased⟩

end Row

section

variable {engine : Engine} {text : Bool} {natives : List Example} {c : Context}

namespace Step

variable {space : Namespace} {b : Builder} {n : HashedNamespace}

/-- A step puts its features behind those of the open namespace. -/
lemma emit_at (h : c.At engine text natives (engine.hashSpace space.fullName) b n) {s : Step}
    (forgets : s.Forgets engine text space) (root : Record) :
    (s.emit space root c).At engine text natives (engine.hashSpace space.fullName) b
      (n.extend (s.written engine text space root)) := by
  unfold emit written
  cases s.descriptor.value? root with
  | some cell => exact h.run (forgets cell)
  | none => rwa [HashedNamespace.extend_nil]

/-- Steps that keep no texts add to a namespace what each of them writes. -/
lemma emitAll_at {steps : List Step} (h : c.At engine text natives (engine.hashSpace space.fullName) b n)
    (forgets : ∀ s ∈ steps, s.Forgets engine text space) (root : Record) :
    (steps.foldl (fun c s => s.emit space root c) c).At engine text natives (engine.hashSpace space.fullName) b
      (n.extend (steps.flatMap (written engine text space root))) := by
  induction steps generalizing c n with
  | nil => rwa [List.flatMap_nil, HashedNamespace.extend_nil]
  | cons s steps ih =>
    rw [List.flatMap_cons, ← HashedNamespace.extend_extend]
    exact ih (emit_at h (forgets s List.mem_cons_self) root) fun s mem => forgets s (List.mem_cons_of_mem _ mem)

end Step

/-- A block puts its namespace behind those that are closed. -/
lemma Block.emit_started {b : Builder} (h : c.Started engine text natives b) {block : Block}
    (forgets : ∀ s ∈ block.steps, s.Forgets engine text block.runtime) (root : Record) :
    (block.emit root c).Started engine text natives
      { b with closed := b.closed ++ block.written engine text root } := by
  have begun := h.beginNamespace block.runtime
  have roomed : (if block.room = 0 then c.beginNamespace block.runtime
      else (c.beginNamespace block.runtime).preallocate block.room).At engine text natives
        (engine.hashSpace block.runtime.fullName) b
        ⟨block.runtime.index, engine.hashSpace block.runtime.fullName, []⟩ := by
    split
    · exact begun
    · exact begun.preallocate block.room
  have ended := (Step.emitAll_at roomed forgets root).endNamespace
  have closed : ({ b with closed := b.closed ++ block.written engine text root, current := none } : Builder) =
      { b with closed := b.closed ++ block.written engine text root } := by rw [← h.closed]
  rw [← closed]
  exact ended

/-- The blocks of a plan add the namespaces that they write. -/
lemma LinePlan.emitBlocks_started {b : Builder} (h : c.Started engine text natives b) {p : LinePlan}
    (forgets : ∀ block ∈ p.blocks, ∀ s ∈ block.steps, s.Forgets engine text block.runtime) (root : Record) :
    (p.emitBlocks root c).Started engine text natives { b with closed := b.closed ++ p.written engine text root } := by
  unfold emitBlocks written
  generalize p.blocks = blocks at forgets ⊢
  induction blocks generalizing c b with
  | nil => rwa [List.flatMap_nil, List.append_nil]
  | cons block blocks ih =>
    rw [List.flatMap_cons, ← List.append_assoc]
    exact ih (Block.emit_started h (forgets block List.mem_cons_self) root) fun block mem =>
      forgets block (List.mem_cons_of_mem _ mem)

/-- A row that is written puts its line behind those that are finished. -/
theorem Row.emit_resting (h : c.Resting engine text natives) {row : Row}
    (forgets : ∀ block ∈ row.plan.blocks, ∀ s ∈ block.steps, s.Forgets engine text block.runtime)
    (ok : (row.emit c).failure = none) :
    ∃ line, row.line engine text = .ok line ∧ (row.emit c).context.Resting engine text (natives ++ [line]) := by
  unfold emit at ok ⊢
  unfold line label
  cases head : row.head with
  | none => exact ⟨_, rfl, (LinePlan.emitBlocks_started h.startLine forgets row.root).endLine⟩
  | some text =>
    simp only [head] at ok ⊢
    cases labelled : c.startLine.writeLabel text with
    | error failure =>
      rw [labelled] at ok
      cases ok
    | ok labelled' =>
      obtain ⟨parsed, accepted, started⟩ := h.startLine.writeLabel labelled
      rw [accepted]
      exact ⟨_, rfl, (LinePlan.emitBlocks_started started forgets row.root).endLine⟩

/-- Rows that are written put their lines behind those that are finished. -/
theorem emitRows_resting (h : c.Resting engine text natives) {rows : List Row}
    (forgets : ∀ row ∈ rows, ∀ block ∈ row.plan.blocks, ∀ s ∈ block.steps, s.Forgets engine text block.runtime)
    (ok : (emitRows c rows).failure = none) :
    ∃ lines, List.Forall₂ (fun row line => row.line engine text = .ok line) rows lines ∧
      (emitRows c rows).context.Resting engine text (natives ++ lines) := by
  induction rows generalizing c natives with
  | nil => exact ⟨[], .nil, by rwa [List.append_nil]⟩
  | cons row rest ih =>
    obtain ⟨written, eq⟩ := emitRows_cons_failure ok
    rw [eq] at ok ⊢
    obtain ⟨line, made, next⟩ := row.emit_resting h (forgets row List.mem_cons_self) written
    obtain ⟨lines, others, last⟩ := ih next (fun row mem => forgets row (List.mem_cons_of_mem _ mem)) ok
    rw [List.append_assoc] at last
    exact ⟨line :: lines, .cons made others, last⟩

/-- Between lines, the finished lines are all there are. -/
lemma Context.Resting.finish (h : c.Resting engine text natives) : c.finish.lines = natives := by
  rw [Context.finish, c.endLine_of_idle h.current h.builder, h.natives_eq]

end

/-! ## The line of a walk -/

namespace Leaf

/-- The features of a leaf: what its marshaller writes for its value alone, if every member that leads to it is there. -/
def contribution (type : String) (r : Registry) (engine : Engine) (text : Bool) (root : Record) (space : Namespace)
    (leaf : Leaf) : List HashedFeature :=
  match leaf.value? root, resolve type r leaf.descriptor with
  | some cell, .ok (handle, _) => handle.alone engine text space leaf.descriptor.feature cell
  | _, _ => []

/-- The namespaces of some leaves: their groups, each with the features of its leaves in order. -/
def namespaces (engine : Engine) (features : Namespace → Leaf → List HashedFeature) (leaves : List Leaf) :
    List HashedNamespace :=
  (groups leaves).flatMap fun g => g.space.holding engine (g.leaves.flatMap (features g.space))

/-- A leaf of a group is a leaf of the walk. -/
lemma mem_of_mem_groups {leaves : List Leaf} {g : LeafGroup} (group : g ∈ groups leaves) {leaf : Leaf}
    (mem : leaf ∈ g.leaves) : leaf ∈ leaves := by
  obtain ⟨key, -, rfl⟩ := List.mem_map.1 group
  exact List.mem_of_mem_filter (List.mem_mergeSort.1 mem)

/-- Namespaces depend on nothing but the features of their leaves. -/
lemma namespaces_congr {engine : Engine} {features features' : Namespace → Leaf → List HashedFeature}
    {leaves : List Leaf} (eq : ∀ leaf ∈ leaves, ∀ space, features space leaf = features' space leaf) :
    namespaces engine features leaves = namespaces engine features' leaves := by
  refine List.flatMap_congr fun g group => congrArg _ (List.flatMap_congr fun leaf mem => ?_)
  exact eq leaf (mem_of_mem_groups group mem) g.space

end Leaf

/-- A step writes the features of its leaf. -/
lemma Step.Realizes.written {type : String} {r : Registry} {leaf : Leaf} {s : Step} (realizes : s.Realizes type r leaf)
    {engine : Engine} {text : Bool} {space : Namespace} (forgets : s.Forgets engine text space) (root : Record) :
    s.written engine text space root = leaf.contribution type r engine text root space := by
  unfold Step.written Leaf.contribution
  rw [realizes.descriptor, Leaf.descriptor_value?, realizes.resolved]
  cases leaf.value? root with
  | none => rfl
  | some cell =>
    rw [← realizes.descriptor]
    exact (Handle.alone_eq_features (forgets cell)).symm

/-- A block writes what the leaves of its group contribute. -/
lemma Block.Realizes.written {type : String} {r : Registry} {g : LeafGroup} {b : Block} (realizes : b.Realizes type r g)
    {engine : Engine} {text : Bool} (forgets : ∀ s ∈ b.steps, s.Forgets engine text b.runtime) (root : Record) :
    b.written engine text root =
      g.space.holding engine (g.leaves.flatMap (Leaf.contribution type r engine text root g.space)) := by
  have features : b.steps.flatMap (Step.written engine text b.runtime root) =
      g.leaves.flatMap (Leaf.contribution type r engine text root b.runtime) := by
    have steps := realizes.steps
    -- the runtime namespace stays fixed while the steps and their leaves are gone through side by side
    generalize b.steps = steps at forgets steps ⊢
    generalize g.leaves = leaves at steps ⊢
    induction steps with
    | nil => rfl
    | cons first _ ih =>
      rw [List.flatMap_cons, List.flatMap_cons, first.written (forgets _ List.mem_cons_self) root,
        ih fun s mem => forgets s (List.mem_cons_of_mem _ mem)]
  rw [Block.written, features, realizes.runtime]

/-- A plan writes the namespaces of a walk. -/
lemma LinePlan.Realizes.written {c : Catalogue} {r : Registry} {id : Nat} {leaves : List Leaf} {p : LinePlan}
    (realizes : p.Realizes c r id leaves) {engine : Engine} {text : Bool}
    (forgets : ∀ b ∈ p.blocks, ∀ s ∈ b.steps, s.Forgets engine text b.runtime) (root : Record) :
    p.written engine text root = Leaf.namespaces engine (Leaf.contribution (c.name id) r engine text root) leaves := by
  have blocks := realizes.blocks
  unfold LinePlan.written Leaf.namespaces
  generalize p.blocks = blocks at forgets blocks ⊢
  generalize Leaf.groups leaves = gs at blocks ⊢
  induction blocks with
  | nil => rfl
  | cons first _ ih =>
    rw [List.flatMap_cons, List.flatMap_cons, first.written (forgets _ List.mem_cons_self) root,
      ih fun b mem => forgets b (List.mem_cons_of_mem _ mem)]

/-- A line is that of a record: its namespaces are those of a walk over the type of the record. -/
def Catalogue.IsLine (c : Catalogue) (r : Registry) (engine : Engine) (text : Bool) (id : Nat) (root : Record)
    (line : Example) : Prop :=
  ∃ leaves, c.Walk .root 0 (c.fields id) leaves ∧
    line.namespaces = Leaf.namespaces engine (Leaf.contribution (c.name id) r engine text root) leaves

namespace Plan

variable {c : Catalogue} {r : Registry} {id : Nat} {kind : OutputKind} {p : Plan}

/-- If the marshallers of the caller keep no texts and no member asks for it, none are kept. -/
lemma forgets_of_custom {engine : Engine} {text : Bool} (compiled : Plan.compile c r kind id = .ok p)
    (members : ∀ b ∈ p.blocks, ∀ s ∈ b.steps, s.descriptor.dictify = false)
    (custom : ∀ b ∈ p.blocks, ∀ s ∈ b.steps, s.isCustom = true → s.Forgets engine text b.runtime) :
    ∀ b ∈ p.blocks, ∀ s ∈ b.steps, s.Forgets engine text b.runtime := by
  intro b mem s step
  cases source : s.isCustom with
  | true => exact custom b mem s step source
  | false => exact fun cell => (ordinary_of_compile compiled mem step source cell).forgets (members b mem s step)

section

variable {engine : Engine} {options : Options} {default : FloatFormat} {root : Record} {target : LabelTarget} {o : Output}

variable (compiled : Plan.compile c r kind id = .ok p) (off : options.dictify = false)
  (forgets : ∀ b ∈ p.blocks, ∀ s ∈ b.steps, s.Forgets engine (decide (kind = .nativeAndText)) b.runtime)
  (ok : (p.serialize engine options default root target).result = .ok o)

include compiled off forgets ok

/-- If no texts are kept, the lines of an output are those of the rows. -/
lemma rows_line :
    List.Forall₂ (fun row line => row.line engine (decide (kind = .nativeAndText)) = .ok line) (p.rows root target)
      o.lines := by
  have resting : (p.start engine options default).Resting engine (decide (kind = .nativeAndText)) [] :=
    ⟨⟨rfl, by rw [← (compile_spec compiled).1]; rfl, rfl, off⟩, rfl, rfl⟩
  obtain ⟨written, rfl⟩ := serialize_eq_ok ok
  obtain ⟨lines, made, rested⟩ := emitRows_resting resting
    (fun row mem b block => forgets b (mem_blocks_of_mem_rows mem block)) written
  rwa [rested.finish]

/-- The namespaces of a line are those of a walk over the type of its record. -/
lemma isLine_of_forgets :
    List.Forall₂ (fun subject line =>
      c.IsLine r engine (decide (kind = .nativeAndText)) subject.1 subject.2 line) (c.lines id root) o.lines := by
  refine (forall₂_rows compiled root target).comp (rows_line compiled off forgets ok) ?_
  rintro ⟨type, record⟩ row mem line ⟨plan, rfl⟩ eq
  obtain ⟨leaves, realizes⟩ := LinePlan.compile_realizes plan
  obtain ⟨label, -, rfl⟩ := Except.map_eq_ok.1 eq
  exact ⟨leaves, realizes.walk, realizes.written (fun b block => forgets b (mem_blocks_of_mem_rows mem block)) row.root⟩

end

/-- Without kept texts, a compiled plan agrees with a walk over the schema: its blocks are the groups of the walk in order,
the lines of a record and of its candidates are those of walks over their types, and a member that is missing on the way
to a leaf takes the features below it with it and no others. -/
theorem serialize_eq_walk (compiled : Plan.compile c r kind id = .ok p) {engine : Engine} {options : Options}
    (off : options.dictify = false) (members : ∀ b ∈ p.blocks, ∀ s ∈ b.steps, s.descriptor.dictify = false)
    (custom : ∀ b ∈ p.blocks, ∀ s ∈ b.steps, s.isCustom = true →
      s.Forgets engine (decide (kind = .nativeAndText)) b.runtime) :
    (∃ leaves, c.Walk .root 0 (c.fields id) leaves ∧
      List.Forall₂ (Block.Realizes (c.name id) r) (Leaf.groups leaves) p.line.blocks) ∧
    (∀ default root target o, (p.serialize engine options default root target).result = .ok o →
      List.Forall₂ (fun subject line =>
        c.IsLine r engine (decide (kind = .nativeAndText)) subject.1 subject.2 line) (c.lines id root) o.lines) ∧
    (∀ type root way leaves, way ≠ [] → c.Walk .root 0 (c.fields type) leaves →
      (∃ leaf ∈ leaves, way <+: Leaf.steps leaf.chain) → ∀ text,
      Leaf.namespaces engine (Leaf.contribution (c.name type) r engine text (root.without way)) leaves =
        Leaf.namespaces engine (fun space leaf =>
          if way <+: Leaf.steps leaf.chain then []
          else leaf.contribution (c.name type) r engine text root space) leaves) := by
  have forgets := forgets_of_custom compiled members custom
  refine ⟨?_, fun default root target o ok => ?_, fun type root way leaves ne walk onWay text => ?_⟩
  · obtain ⟨leaves, realizes⟩ := LinePlan.compile_realizes (compile_spec compiled).2.1
    exact ⟨leaves, realizes.walk, realizes.blocks⟩
  · exact isLine_of_forgets compiled off forgets ok
  · refine Leaf.namespaces_congr fun leaf mem space => ?_
    unfold Leaf.contribution
    rw [walk.value?_without root ne onWay mem]
    by_cases below : way <+: Leaf.steps leaf.chain
    · rw [if_pos below, if_pos below]
    · rw [if_neg below, if_neg below]

/-- Every hypothesis of `serialize_eq_walk` holds of a shop with a marshaller of its own, whose item is missing. -/
theorem serialize_eq_walk_shop :
    (∃ leaves, Shop.catalogue.Walk .root 0 (Shop.catalogue.fields 0) leaves ∧
      List.Forall₂ (Block.Realizes "Shop" .empty) (Leaf.groups leaves) (Shop.plan .native).line.blocks) ∧
    Shop.record none = (Shop.record (some Shop.item)).without [2] ∧
    ∃ o, ((Shop.plan .native).serialize (.reference 7) {} .compact (Shop.record none) .none).result = .ok o ∧
      o.lines.map (fun line => line.namespaces.map fun n => (n.index, n.features.length)) =
        [[(' ', 1), ('a', 1), ('d', 3)]] ∧
      List.Forall₂ (fun subject line => Shop.catalogue.IsLine .empty (.reference 7) false subject.1 subject.2 line)
        [(0, Shop.record none)] o.lines := by
  have compiled := Shop.compile_eq .native
  have members : ∀ b ∈ (Shop.plan .native).blocks, ∀ s ∈ b.steps, s.descriptor.dictify = false := by decide +kernel
  have mark : Step.Forgets (.reference 7) false (.make (some "attrs") none) ⟨Shop.mark, Shop.marker, .override⟩ :=
    fun cell => by
      unfold Handle.write
      split
      · trivial
      · split <;> trivial
  have custom : ∀ b ∈ (Shop.plan .native).blocks, ∀ s ∈ b.steps, s.isCustom = true →
      s.Forgets (.reference 7) false b.runtime := by
    simpa [blocks, Shop.plan, Shop.step, Step.isCustom] using mark
  have off : ({} : Options).dictify = false := rfl
  obtain ⟨layout, lines, -⟩ := serialize_eq_walk compiled off members custom
  have ok : ((Shop.plan .native).serialize (.reference 7) {} .compact (Shop.record none) .none).result = .ok _ := rfl
  exact ⟨layout, rfl, _, ok, by decide +kernel, lines _ _ _ _ ok⟩

end Plan

end FeatureLines
