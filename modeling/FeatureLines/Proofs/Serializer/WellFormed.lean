import FeatureLines.Proofs.Marshal.WellFormed
import FeatureLines.Proofs.Serializer.Client
import FeatureLines.Proofs.Serializer.Rows

/-!
# Every example is well formed

Examples come from contexts, which callers may use for records along any plans and for writings of their own, from
serializers, which may keep results, and from lines that are read. From each source they are well formed, and the names of
their namespaces are those of the blocks of the plans, or of the segments of the line (`Example.wellFormed_of_source`).
-/

namespace FeatureLines

open Text

/-- The names that are hashed for the namespaces of a plan. -/
def Plan.spaceNames (p : Plan) : List String := p.blocks.map fun b => b.runtime.fullName

def Output.WellFormed (engine : Engine) (names : String → Prop) (o : Output) : Prop :=
  ∀ e ∈ o.lines, e.WellFormed engine names

variable {engine : Engine} {names : String → Prop}

/-! ## Plans -/

section

variable {c : Context}

/-- Whatever a marshaller writes, the context stays well-formed. -/
lemma Step.emit_wellFormed (h : c.WellFormed engine names) (s : Step) (space : Namespace) (root : Record) :
    (s.emit space root c).WellFormed engine names := by
  unfold emit
  split
  · exact h.run _
  · exact h

/-- A block opens a namespace of a known name. -/
lemma Block.emit_wellFormed (h : c.WellFormed engine names) {b : Block} (known : names b.runtime.fullName) (root : Record) :
    (b.emit root c).WellFormed engine names := by
  have begun := h.beginNamespace known
  have roomed : (if b.room = 0 then c.beginNamespace b.runtime
      else (c.beginNamespace b.runtime).preallocate b.room).WellFormed engine names := by
    split
    · exact begun
    · exact begun.preallocate _
  have steps (steps : List Step) {c : Context} (h : c.WellFormed engine names) :
      (steps.foldl (fun c step => step.emit b.runtime root c) c).WellFormed engine names := by
    induction steps generalizing c with
    | nil => exact h
    | cons s steps ih => exact ih (s.emit_wellFormed h b.runtime root)
  exact (steps b.steps roomed).endNamespace

/-- Blocks of known names keep a context well-formed. -/
lemma LinePlan.emitBlocks_wellFormed (h : c.WellFormed engine names) {p : LinePlan}
    (known : ∀ b ∈ p.blocks, names b.runtime.fullName) (root : Record) :
    (p.emitBlocks root c).WellFormed engine names := by
  have each (blocks : List Block) (known : ∀ b ∈ blocks, names b.runtime.fullName) {c : Context}
      (h : c.WellFormed engine names) : (blocks.foldl (fun c b => b.emit root c) c).WellFormed engine names := by
    induction blocks generalizing c with
    | nil => exact h
    | cons b blocks ih =>
      obtain ⟨first, others⟩ := List.forall_mem_cons.1 known
      exact ih others (b.emit_wellFormed h first root)
  exact each p.blocks known h

/-- A row keeps a context well-formed, also if its label is refused. -/
lemma Row.emit_wellFormed (h : c.WellFormed engine names) {row : Row}
    (known : ∀ b ∈ row.plan.blocks, names b.runtime.fullName) : (row.emit c).context.WellFormed engine names := by
  have started := h.startLine
  unfold emit
  split
  · exact (LinePlan.emitBlocks_wellFormed started known row.root).endLine
  · split
    · rename_i labelled accepted
      exact (LinePlan.emitBlocks_wellFormed (started.writeLabel accepted) known row.root).endLine
    · exact started

/-- Rows keep a context well-formed, up to one whose label is refused. -/
lemma emitRows_wellFormed (h : c.WellFormed engine names) {rows : List Row}
    (known : ∀ row ∈ rows, ∀ b ∈ row.plan.blocks, names b.runtime.fullName) :
    (emitRows c rows).context.WellFormed engine names := by
  induction rows generalizing c with
  | nil => exact h
  | cons row rows ih =>
    obtain ⟨first, others⟩ := List.forall_mem_cons.1 known
    have written := Row.emit_wellFormed h first
    rw [emitRows_cons]
    split
    · exact written
    · exact ih written others

/-- A record is written well formed, also if a label is refused on the way. -/
lemma Plan.serializeInto_wellFormed (h : c.WellFormed engine names) {p : Plan} (known : ∀ name ∈ p.spaceNames, names name)
    (root : Record) (target : LabelTarget) : (p.serializeInto root target c).context.WellFormed engine names := by
  unfold serializeInto
  split
  · exact h
  · rw [emit_eq_emitRows]
    have marked : Context.WellFormed engine names { c with multiLine := c.multiLine || p.isMultiLine } :=
      h.of_eq rfl rfl rfl
    refine emitRows_wellFormed marked fun row mem b block => known _ ?_
    exact List.mem_map_of_mem (mem_blocks_of_mem_rows mem block)

end

/-! ## Contexts in use -/

namespace Context

/-- What a caller does with a context. -/
inductive Use where
  | record (plan : Plan) (root : Record) (target : LabelTarget)
  | writing (w : Writing)

/-- The names that are hashed in a use. -/
def Use.spaceNames : Use → List String
  | record plan _ _ => plan.spaceNames
  | writing _ => []

/-- A record that is refused leaves what was written before. -/
def use (c : Context) : Use → Context
  | .record plan root target => (plan.serializeInto root target c).context
  | .writing w => c.run w

/-- Any uses keep a context well formed. -/
lemma WellFormed.uses {c : Context} (h : c.WellFormed engine names) {uses : List Use}
    (known : ∀ use ∈ uses, ∀ name ∈ use.spaceNames, names name) : (uses.foldl use c).WellFormed engine names := by
  induction uses generalizing c with
  | nil => exact h
  | cons next uses ih =>
    obtain ⟨first, others⟩ := List.forall_mem_cons.1 known
    refine ih ?_ others
    cases next with
    | record plan root target => exact Plan.serializeInto_wellFormed h first root target
    | writing w => exact h.run w

end Context

/-- The output of a serialization is well formed. -/
lemma Plan.serialize_wellFormed {p : Plan} (known : ∀ name ∈ p.spaceNames, names name) {options : Options}
    {default : FloatFormat} {root : Record} {target : LabelTarget} {o : Output}
    (ok : (p.serialize engine options default root target).result = .ok o) : o.WellFormed engine names := by
  obtain ⟨-, rfl⟩ := serialize_eq_ok ok
  have start : (p.start engine options default).WellFormed engine names :=
    (Context.WellFormed.new engine names options default).of_eq rfl rfl rfl
  refine (emitRows_wellFormed start fun row mem b block => known _ ?_).finish
  exact List.mem_map_of_mem (mem_blocks_of_mem_rows mem block)

/-! ## Serializers in use -/

namespace Serializer

variable {α η : Type} {s : Serializer α η} {format : FloatFormat} {x : α} {target : LabelTarget}

/-- The results that a serializer keeps are well formed. -/
structure WellFormed (engine : Engine) (names : String → Prop) (s : Serializer α η) : Prop where
  engine_eq : s.engine = engine
  plan : ∀ name ∈ s.plan.spaceNames, names name
  memory : ∀ m, s.memory = some m → m.cache.All fun _ result => result.output.WellFormed engine names

/-- A result that is computed is well-formed, whatever the cache holds. -/
lemma WellFormed.compute (h : s.WellFormed engine names) {result : Result}
    (ok : (s.compute format x target).result = .ok result) : result.output.WellFormed engine names := by
  obtain ⟨o, made, rfl⟩ := Except.map_eq_ok.1 ok
  rw [h.engine_eq] at made
  exact Plan.serialize_wellFormed h.plan (Except.mapError_eq_ok.1 made)

variable [DecidableEq η]

/-- A result that is given was kept, or is made now. -/
lemma WellFormed.serialize (h : s.WellFormed engine names) (format : FloatFormat) (x : α) :
    (s.serialize format x).serializer.WellFormed engine names ∧
      ∀ result, (s.serialize format x).result = .ok result → result.output.WellFormed engine names := by
  have computed (result : Result) (ok : (s.compute format x .none).result = .ok result) := h.compute ok
  obtain ⟨recordOf, engine', options, registry, plan, memory, made⟩ := s
  cases memory with
  | none => exact ⟨⟨h.engine_eq, h.plan, fun _ none => (nomatch none)⟩, computed⟩
  | some m =>
    obtain ⟨kept, given, -⟩ := (h.memory m rfl).getOrCompute m.comparer x
      (fun cache => (cache, (Serializer.compute _ format x .none).result)) fun _ all => ⟨all, computed⟩
    refine ⟨⟨h.engine_eq, h.plan, ?_⟩, fun result ok => ?_⟩
    · rintro _ ⟨⟩
      exact kept
    · obtain ⟨_, holds, -⟩ := given result ok
      exact holds

end Serializer

namespace Client

variable {α η : Type} [DecidableEq η] {c : Client α η}

/-- A call keeps a serializer well-formed, and its output is so too. -/
lemma call_wellFormed (h : c.serializer.WellFormed engine names) (call : Call α) :
    (c.call call).1.serializer.WellFormed engine names ∧
      ∀ o, (c.call call).2 = .output (.ok o) → o.WellFormed engine names := by
  cases call with
  | serialize x =>
    obtain ⟨next, given⟩ := h.serialize c.format x
    refine ⟨next, fun o eq => ?_⟩
    obtain ⟨result, ok, rfl⟩ := Except.map_eq_ok.1 (Reply.output.inj eq)
    exact given result ok
  | labeled x target =>
    refine ⟨⟨h.engine_eq, h.plan, h.memory⟩, fun o eq => ?_⟩
    obtain ⟨result, ok, rfl⟩ := Except.map_eq_ok.1 (Reply.output.inj eq)
    exact h.compute ok
  | validate x => exact ⟨h, fun _ eq => nomatch eq⟩
  | clearCache =>
    refine ⟨⟨h.engine_eq, h.plan, fun m found => ?_⟩, fun _ eq => nomatch eq⟩
    obtain ⟨before, -, rfl⟩ := Option.map_eq_some_iff.1 found
    exact .of_empty rfl
  | setFormat format => exact ⟨h, fun _ eq => nomatch eq⟩

/-- Whatever a client calls. -/
lemma run_wellFormed (h : c.serializer.WellFormed engine names) (calls : List (Call α)) :
    ∀ o, .output (.ok o) ∈ c.run calls → o.WellFormed engine names := by
  induction calls generalizing c with
  | nil =>
    intro o mem
    cases mem
  | cons call calls ih =>
    obtain ⟨next, given⟩ := call_wellFormed h call
    intro o mem
    rcases List.mem_cons.1 mem with here | later
    · exact given o here.symm
    · exact ih next o later

end Client

/-- Whoever makes an example, it is well formed: no namespace is without features, no weight is zero or NaN, and the index
of each namespace is the first character of the name that was hashed, or a space. Examples come from a context that is used
in any way, from a serializer that has kept nothing yet and is called in any way, or from a line that is read. -/
theorem Example.wellFormed_of_source (engine : Engine) :
    (∀ options default text uses,
      ∀ e ∈ (List.foldl Context.use { Context.new engine options default with text } uses).finish.lines,
        e.WellFormed engine fun name => ∃ use ∈ uses, name ∈ use.spaceNames) ∧
    (∀ (α η : Type) [DecidableEq η] (s : Serializer α η), s.engine = engine → s.cached = [] →
      ∀ format calls o, .output (.ok o) ∈ (Client.mk s format).run calls →
        ∀ e ∈ o.lines, e.WellFormed engine (· ∈ s.plan.spaceNames)) ∧
    ∀ line e, Line.read engine line = .ok e → e.WellFormed engine (· ∈ Line.spaceNames line) := by
  refine ⟨fun options default text uses => ?_, fun α η _ s own empty format calls o mem => ?_,
    fun line e => Line.read_wellFormed⟩
  · have start := (Context.WellFormed.new engine (fun name => ∃ use ∈ uses, name ∈ use.spaceNames) options default).of_eq
      (d := { Context.new engine options default with text }) rfl rfl rfl
    exact (start.uses fun use mem name named => ⟨use, mem, named⟩).finish
  · refine Client.run_wellFormed (c := ⟨s, format⟩) ⟨own, fun _ named => named, fun m found => ?_⟩ calls o mem
    intro b bucket entry stored
    have result : entry.2 ∈ s.cached := by
      unfold Serializer.cached
      rw [found]
      exact List.mem_flatMap.2 ⟨b, bucket, List.mem_map_of_mem stored⟩
    rw [empty] at result
    cases result

/-- A line of which one feature is left, and a shop with a dense vector that holds a zero. -/
theorem Example.wellFormed_of_source_shop :
    ∃ e o, Line.read (.reference 7) "1 |ab x:0 y:2 |c z:-0".toList = .ok e ∧
      (Client.mk (Shop.serializer none) .compact).run [.serialize true] = [.output (.ok o)] ∧
      e.namespaces.map (fun n => (n.index, n.features.length)) = [('a', 1)] ∧
      o.lines.map (fun e => e.namespaces.map fun n => n.features.length) = [[2, 2, 3]] ∧
      e.WellFormed (.reference 7) (· ∈ ["ab", "c"]) ∧
      ∀ e ∈ o.lines, e.WellFormed (.reference 7) (· ∈ (Shop.plan .nativeAndText).spaceNames) := by
  have read : (Line.read (.reference 7) "1 |ab x:0 y:2 |c z:-0".toList).map (fun e =>
      e.namespaces.map fun n => (n.index, n.features.length)) = .ok [('a', 1)] := by decide +kernel
  have written : ((Shop.serializer none).outputs .compact true .none).map (fun o =>
      o.lines.map fun e => e.namespaces.map fun n => n.features.length) = .ok [[2, 2, 3]] := by decide +kernel
  obtain ⟨-, outputs, lines⟩ := Example.wellFormed_of_source (.reference 7)
  obtain ⟨e, ok, shape⟩ := Except.map_eq_ok.1 read
  obtain ⟨o, made, shape'⟩ := Except.map_eq_ok.1 written
  have replies : (Client.mk (Shop.serializer none) .compact).run [.serialize true] = [.output (.ok o)] := by
    rw [← made]
    rfl
  refine ⟨e, o, ok, replies, shape, shape', lines _ e ok, ?_⟩
  exact outputs Bool Unit (Shop.serializer none) rfl rfl .compact [.serialize true] o (replies ▸ List.mem_singleton.2 rfl)

end FeatureLines
