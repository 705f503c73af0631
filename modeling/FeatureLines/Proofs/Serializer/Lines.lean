import FeatureLines.Proofs.Marshal.Frame
import FeatureLines.Proofs.Serializer.Direct

/-!
# The namespaces of a line

A row that is written comes to a line whose namespaces are those of some of its blocks, in their order: marshallers decide
whether a block has features, and nothing else. This holds whatever marshallers do and whichever texts are kept.
-/

namespace FeatureLines

/-- A namespace is that of a block, and has features. -/
def Block.Lays (engine : Engine) (b : Block) (n : HashedNamespace) : Prop :=
  n.index = b.runtime.index ∧ n.hash = engine.hashSpace b.runtime.fullName ∧ n.features ≠ []

/-- Namespaces are those of some of the blocks of a plan, in their order. -/
def LinePlan.Lays (engine : Engine) (p : LinePlan) (namespaces : List HashedNamespace) : Prop :=
  ∃ blocks, blocks.Sublist p.blocks ∧ List.Forall₂ (Block.Lays engine) blocks namespaces

/-- What has the outline of an open namespace without features is the namespace with some. -/
lemma Builder.eq_of_outline {b b' : Builder} {n : HashedNamespace} (opened : b.current = some n)
    (same : b'.outline = b.outline) : ∃ features, b' = { b with current := some { n with features } } := by
  obtain ⟨label, closed, current, leased⟩ := b
  obtain ⟨label', closed', current', leased'⟩ := b'
  cases opened
  unfold outline at same
  cases current' with
  | none => cases same
  | some n' =>
    obtain ⟨index, hash, features⟩ := n
    obtain ⟨index', hash', features'⟩ := n'
    cases same
    exact ⟨features', rfl⟩

namespace Context

/-- No line is started, and no namespace is open. -/
structure Idle (engine : Engine) (natives : List Example) (c : Context) : Prop where
  engine_eq : c.engine = engine
  natives_eq : c.natives = natives
  current : c.current = none
  builder : c.builder = none

/-- A line is started, of which `b` has been built, and no namespace is open. -/
structure Begun (engine : Engine) (natives : List Example) (b : Builder) (c : Context) : Prop where
  engine_eq : c.engine = engine
  natives_eq : c.natives = natives
  current : c.current = none
  builder : c.builder = some b
  closed : b.current = none

/-- In a started line, `n` is the open namespace. -/
structure Within (engine : Engine) (natives : List Example) (b : Builder) (n : HashedNamespace) (c : Context) : Prop where
  engine_eq : c.engine = engine
  natives_eq : c.natives = natives
  current : ∃ opened, c.current = some opened
  builder : c.builder = some { b with current := some n }

variable {engine : Engine} {natives : List Example} {b : Builder} {n : HashedNamespace} {c d : Context}

/-- Whatever leaves all but features alone leaves the same namespace open. -/
lemma Within.frame (h : c.Within engine natives b n) (frame : c.Frame d) :
    ∃ features, d.Within engine natives b { n with features } := by
  have built := frame.builder
  rw [h.builder] at built
  obtain ⟨b', eq, same⟩ := Option.map_eq_some_iff.1 built
  obtain ⟨features, rfl⟩ := Builder.eq_of_outline rfl same
  obtain ⟨opened, current⟩ := h.current
  exact ⟨features, frame.engine.trans h.engine_eq, frame.natives.trans h.natives_eq,
    ⟨opened, frame.current.trans current⟩, eq⟩

/-- A namespace is opened with its own header and no features. -/
lemma Begun.beginNamespace (h : c.Begun engine natives b) (space : Namespace) :
    (c.beginNamespace space).Within engine natives b ⟨space.index, engine.hashSpace space.fullName, []⟩ := by
  have builder := builder_beginNamespace h.builder h.closed space
  rw [h.engine_eq] at builder
  exact ⟨h.engine_eq, h.natives_eq, ⟨_, rfl⟩, builder⟩

/-- A namespace that is closed goes to the line, unless it has no features. -/
lemma Within.endNamespace (h : c.Within engine natives b n) (closed : b.current = none) :
    c.endNamespace.Begun engine natives { b with closed := b.closed ++ if n.features.isEmpty then [] else [n] } := by
  obtain ⟨opened, current⟩ := h.current
  have builder := builder_endNamespace current h.builder
  rw [← closed] at builder
  unfold Context.endNamespace at builder ⊢
  rw [current] at builder ⊢
  exact ⟨h.engine_eq, h.natives_eq, rfl, builder, closed⟩

/-- A started line is empty. -/
lemma Idle.startLine (h : c.Idle engine natives) : c.startLine.Begun engine natives (.ofExample engine.newExample) := by
  unfold Context.startLine
  rw [h.builder]
  exact ⟨h.engine_eq, h.natives_eq, h.current, by rw [← h.engine_eq]; rfl, rfl⟩

/-- A label is set only if the engine accepts it. -/
lemma Begun.writeLabel (h : c.Begun engine natives b) {label : String} (ok : c.writeLabel label = .ok d) :
    ∃ parsed, engine.readLabel label.toList = .ok parsed ∧ d.Begun engine natives (b.setLabel parsed) := by
  obtain ⟨parsed, accepted, rfl⟩ := Except.map_eq_ok.1 ok
  rw [h.engine_eq] at accepted
  exact ⟨parsed, accepted, h.engine_eq, h.natives_eq, h.current, by rw [h.builder]; rfl, h.closed⟩

/-- The line that is ended joins the finished ones. -/
lemma Begun.endLine (h : c.Begun engine natives b) :
    c.endLine.Idle engine (natives ++ [⟨b.label, b.closed, b.leased⟩]) := by
  rw [endLine_eq h.current h.builder h.closed]
  exact ⟨h.engine_eq, congrArg (· ++ _) h.natives_eq, h.current, rfl⟩

/-- Nothing is written in a new context. -/
lemma idle_new (engine : Engine) (options : Options) (default : FloatFormat) : (new engine options default).Idle engine [] :=
  ⟨rfl, rfl, rfl, rfl⟩

lemma Idle.endLine (h : c.Idle engine natives) : c.endLine = c := c.endLine_of_idle h.current h.builder

/-- Between lines, the finished lines are all there are. -/
lemma Idle.finish (h : c.Idle engine natives) : c.finish.lines = natives := by
  unfold Context.finish
  rw [h.endLine]
  exact h.natives_eq

end Context

/-- No line is started in the context in which a record is serialized. -/
lemma Plan.idle_start (p : Plan) (engine : Engine) (options : Options) (default : FloatFormat) :
    (p.start engine options default).Idle engine [] := ⟨rfl, rfl, rfl, rfl⟩

/-! ## Blocks, rows and records -/

section

variable {engine : Engine} {natives : List Example} {b : Builder} {c : Context}

/-- A step does not go beyond the open namespace, whether its guards hold or not. -/
lemma Step.frame_emit (s : Step) (space : Namespace) (root : Record) (c : Context) : c.Frame (s.emit space root c) := by
  unfold emit
  split
  · exact .run c _
  · exact .refl c

lemma Step.frame_emitAll (steps : List Step) (space : Namespace) (root : Record) (c : Context) :
    c.Frame (steps.foldl (fun c s => s.emit space root c) c) := by
  induction steps generalizing c with
  | nil => exact .refl c
  | cons s steps ih => exact (s.frame_emit space root c).trans (ih _)

/-- A block adds its own namespace if it has features, and nothing else. -/
lemma Block.emit_begun (h : c.Begun engine natives b) (block : Block) (root : Record) :
    ∃ features, (block.emit root c).Begun engine natives
      { b with closed := b.closed ++ block.runtime.holding engine features } := by
  have begun := h.beginNamespace block.runtime
  have roomed : (c.beginNamespace block.runtime).Frame
      (if block.room = 0 then c.beginNamespace block.runtime
        else (c.beginNamespace block.runtime).preallocate block.room) := by
    split
    · exact .refl _
    · exact .preallocate _ _
  obtain ⟨features, within⟩ := begun.frame (roomed.trans (Step.frame_emitAll block.steps block.runtime root _))
  exact ⟨features, within.endNamespace h.closed⟩

/-- Blocks add their namespaces in order, each one or none. -/
lemma LinePlan.emitBlocks_begun (h : c.Begun engine natives b) (p : LinePlan) (root : Record) :
    ∃ namespaces, (p.emitBlocks root c).Begun engine natives { b with closed := b.closed ++ namespaces } ∧
      p.Lays engine namespaces := by
  unfold emitBlocks Lays
  generalize p.blocks = blocks
  induction blocks generalizing c b with
  | nil => exact ⟨[], by rwa [List.append_nil], [], .slnil, .nil⟩
  | cons block blocks ih =>
    obtain ⟨features, begun⟩ := block.emit_begun h root
    obtain ⟨namespaces, rest, some, sub, laid⟩ := ih begun
    rw [List.append_assoc] at rest
    refine ⟨_, rest, ?_⟩
    unfold Namespace.holding
    split
    · exact ⟨some, .cons block sub, laid⟩
    · rename_i held
      have features_ne : features ≠ [] := fun none => held (List.isEmpty_iff.2 none)
      exact ⟨block :: some, .cons_cons block sub, .cons ⟨rfl, rfl, features_ne⟩ laid⟩

/-- A row that is written puts a line behind those that are finished, with namespaces of its blocks. -/
theorem Row.emit_idle (h : c.Idle engine natives) {row : Row} (ok : (row.emit c).failure = none) :
    ∃ line, (row.emit c).context.Idle engine (natives ++ [line]) ∧ row.plan.Lays engine line.namespaces := by
  have start := h.startLine
  unfold emit at ok ⊢
  cases head : row.head with
  | none =>
    obtain ⟨namespaces, begun, lays⟩ := row.plan.emitBlocks_begun start row.root
    refine ⟨_, begun.endLine, ?_⟩
    exact lays
  | some text =>
    rw [head] at ok
    cases written : c.startLine.writeLabel text with
    | error failure =>
      simp only [written] at ok
      cases ok
    | ok d =>
      obtain ⟨parsed, -, labelled⟩ := start.writeLabel written
      obtain ⟨namespaces, begun, lays⟩ := row.plan.emitBlocks_begun labelled row.root
      simp only [written]
      exact ⟨_, begun.endLine, lays⟩

/-- Rows that are all written come to one line each, in their order, and each line is laid out by the plan of its row. -/
theorem emitRows_idle (h : c.Idle engine natives) {rows : List Row} (ok : (emitRows c rows).failure = none) :
    ∃ lines, (emitRows c rows).context.Idle engine (natives ++ lines) ∧
      List.Forall₂ (fun row line => row.plan.Lays engine line.namespaces) rows lines := by
  induction rows generalizing c natives with
  | nil => exact ⟨[], by rwa [List.append_nil], .nil⟩
  | cons row rest ih =>
    obtain ⟨written, eq⟩ := emitRows_cons_failure ok
    rw [eq] at ok ⊢
    obtain ⟨line, idle, lays⟩ := Row.emit_idle h written
    obtain ⟨lines, idle, all⟩ := ih idle ok
    exact ⟨line :: lines, by rwa [List.append_cons], .cons lays all⟩

end

end FeatureLines
