import FeatureLines.Proofs.Marshal.Mirror
import FeatureLines.Proofs.Serializer.Rows

/-!
# The text form reads back

Reading the text of a serialization gives the examples that were built. The invariant is `Context.Between`: the lines
that are finished are read as their examples. A block leads from a line without an open namespace to such a line, a row
from `Between` to `Between`, and so do all rows of a record (`Plan.emitRows_between`).

Main statement: `Plan.readAll_text`.
-/

namespace FeatureLines

open Number Text

/-! ## Names of compiled features -/

/-- A leaf with a name has names for its feature and for its variants. -/
lemma Leaf.isNamed {leaf : Leaf} (ne : leaf.descriptor.name ≠ "") : leaf.descriptor.feature.IsNamed := by
  have named : IsTokenName leaf.descriptor.name := ⟨ne, fun _ => not_needsEscape_of_mem_escape⟩
  refine ⟨named, fun token mem => ?_⟩
  obtain ⟨variant, -, rfl⟩ := List.mem_map.1 mem
  exact named.append_escape variant

lemma Namespace.plain_fullName (name : Option String) (group : Option Char) :
    ∀ d ∈ (Namespace.make name group).fullName.toList, isBlank d = false ∧ d ≠ '|' := by
  intro d mem
  simp only [Namespace.make, String.toList_append, List.mem_append] at mem
  rcases mem with tag | text
  · cases group with
    | none => cases tag
    | some group =>
      have eq : d = escapeChar group := by simpa using tag
      exact eq ▸ not_blank_of_not_needsEscape (needsEscape_escapeChar group)
  · cases name with
    | none => cases text
    | some name => exact not_blank_of_not_needsEscape (not_needsEscape_of_mem_escape text)

namespace Step

/-- The marshaller writes legibly to every context for both forms. -/
def Legible (engine : Engine) (space : Namespace) (s : Step) : Prop :=
  ∀ c : Context, c.engine = engine → c.text = true →
    ∀ cell, c.Legible (s.handle.write space s.descriptor.feature cell)

/-- A step whose marshaller does not come from the caller writes legibly. -/
lemma Realizes.legible {type : String} {r : Registry} {leaf : Leaf} {s : Step} (realizes : s.Realizes type r leaf)
    (named : s.descriptor.name ≠ "") (builtIn : s.isCustom = false) (engine : Engine) (space : Namespace) :
    s.Legible engine space := fun c _ _ cell => by
  have ordinary := realizes.ordinary builtIn space cell
  rw [realizes.descriptor] at named ordinary ⊢
  exact Context.legible_of_ordinary (Leaf.isNamed named) ordinary c

end Step

/-! ## Lines -/

namespace Context

variable {engine : Engine} {c : Context}

/-- No line is started. -/
structure Between (engine : Engine) (c : Context) : Prop extends Finished engine c where
  current : c.current = none
  builder : c.builder = none

lemma Between.startLine (h : c.Between engine) :
    c.startLine = { c with builder := some (.ofExample engine.newExample), line := "" } := by
  unfold Context.startLine
  rw [h.builder, ← h.engine_eq]
  rfl

lemma Between.startLine_closed (h : c.Between engine) : c.startLine.Closed engine := by
  rw [h.startLine]
  exact ⟨⟨h.engine_eq, h.text, h.lines⟩, h.current, _, rfl, rfl, by simp⟩

lemma Between.writeLabel (h : c.Between engine) (regular : engine.Regular) {text : String} (oneLine : '\n' ∉ text.toList)
    {c' : Context} (ok : c.startLine.writeLabel text = .ok c') : c'.Closed engine := by
  rw [h.startLine] at ok
  obtain ⟨label, accepted, rfl⟩ := Except.map_eq_ok.1 ok
  refine ⟨⟨h.engine_eq, h.text, h.lines⟩, h.current, _, rfl, ?_⟩
  have read : engine.readLabel text.toList = .ok label := by rwa [← h.engine_eq]
  rw [regular.readLabel] at read
  simp only [h.text, if_true, String.toList_append, String.toList_ofList]
  change Line.Mirrors engine (trim text.toList) _
  refine ⟨?_, fun d mem newline => oneLine (newline ▸ mem_of_mem_trim mem)⟩
  rw [Line.build_of_forall_ne_bar fun d mem => ParsedLabel.ne_bar_of_read read mem, Line.addHead, trim_trim]
  split
  · rename_i blank
    exact absurd blank (ParsedLabel.trim_ne_nil_of_read read)
  · rw [regular.readLabel, ParsedLabel.read_trim, read]
    rfl

/-- A finished line is read as its example. -/
lemma Closed.endLine (h : c.Closed engine) : c.endLine.Between engine ∧ c.endLine.texts ≠ [] := by
  obtain ⟨b, builder, mirrors⟩ := h.mirrors
  have ended : c.endLine =
      { c with builder := none, natives := c.natives ++ [b.finish], texts := c.texts ++ [c.line], line := "" } := by
    simp only [Context.endLine, Context.endNamespace, h.current, builder, h.text, if_true]
  rw [ended]
  refine ⟨⟨⟨h.engine_eq, h.text, ?_⟩, h.current, rfl⟩, by simp⟩
  exact List.rel_append h.lines (.cons ⟨mirrors.oneLine, Line.read_of_build mirrors.build⟩ .nil)

end Context

variable {engine : Engine} {c : Context}

/-- A block whose writings are legible and whose namespace is. -/
structure Block.Legible (engine : Engine) (b : Block) : Prop where
  plain : ∀ d ∈ b.runtime.fullName.toList, isBlank d = false ∧ d ≠ '|'
  steps : ∀ s ∈ b.steps, s.Legible engine b.runtime

lemma Step.emit_opened {s : Step} {space : OpenNamespace} {runtime : Namespace} (h : c.Opened engine space)
    (regular : engine.Regular) (legible : s.Legible engine runtime) (root : Record) :
    (s.emit runtime root c).Opened engine space := by
  unfold Step.emit
  split
  · exact h.run regular (legible c h.engine_eq h.text _)
  · exact h

/-- A namespace is written to a line without an open one and leaves such a line. -/
lemma Block.emit_closed {b : Block} (h : c.Closed engine) (regular : engine.Regular) (legible : b.Legible engine)
    (root : Record) : (b.emit root c).Closed engine := by
  have begun := h.beginNamespace legible.plain
  have roomed : (if b.room = 0 then c.beginNamespace b.runtime
      else (c.beginNamespace b.runtime).preallocate b.room).Opened engine
        ⟨engine.hashSpace b.runtime.fullName, c.line⟩ := by
    split
    · exact begun
    · exact begun.preallocate b.room
  refine Context.Opened.endNamespace (List.foldlRecOn b.steps _ roomed fun c h s mem => ?_)
  exact Step.emit_opened h regular (legible.steps s mem) root

namespace LinePlan

variable {p : LinePlan}

lemma emitBlocks_closed (h : c.Closed engine) (regular : engine.Regular) (legible : ∀ b ∈ p.blocks, b.Legible engine)
    (root : Record) : (p.emitBlocks root c).Closed engine :=
  List.foldlRecOn p.blocks _ h fun _ h b mem => Block.emit_closed h regular (legible b mem) root

end LinePlan

/-- A row is written between lines. -/
theorem Row.emit_between {row : Row} (h : c.Between engine) (regular : engine.Regular)
    (legible : ∀ b ∈ row.plan.blocks, b.Legible engine) (oneLine : ∀ text, row.head = some text → '\n' ∉ text.toList)
    (ok : (row.emit c).failure = none) :
    (row.emit c).context.Between engine ∧ (row.emit c).context.texts ≠ [] := by
  unfold emit at ok ⊢
  cases head : row.head with
  | none => exact (LinePlan.emitBlocks_closed h.startLine_closed regular legible row.root).endLine
  | some text =>
    simp only [head] at ok ⊢
    cases written : c.startLine.writeLabel text with
    | error failure =>
      rw [written] at ok
      cases ok
    | ok labelled =>
      have closed := h.writeLabel regular (oneLine text head) written
      exact (LinePlan.emitBlocks_closed closed regular legible row.root).endLine

/-! ## Records -/

namespace Plan

variable {p : Plan}

/-- The rows of a record are written between lines, and they are a line at least. -/
theorem emitRows_between (h : c.Between engine) (regular : engine.Regular) (legible : ∀ b ∈ p.blocks, b.Legible engine)
    {root : Record} {target : LabelTarget} (oneLine : ∀ text ∈ p.heads root target, '\n' ∉ text.toList)
    (ok : (emitRows c (p.rows root target)).failure = none) :
    (emitRows c (p.rows root target)).context.Between engine ∧ (emitRows c (p.rows root target)).context.texts ≠ [] := by
  have step : ∀ row ∈ p.rows root target, ∀ c : Context, c.Between engine → (row.emit c).failure = none →
      (row.emit c).context.Between engine ∧ (row.emit c).context.texts ≠ [] := fun row mem c h written =>
    row.emit_between h regular (fun b block => legible b (mem_blocks_of_mem_rows mem block))
      (fun text head => oneLine text (mem_heads_of_mem_rows mem head)) written
  -- the first row leaves a finished line, and no later row takes one away
  obtain ⟨row, rest, rows, -⟩ := p.rows_eq_cons root target
  rw [rows] at ok step ⊢
  obtain ⟨written, eq⟩ := emitRows_cons_failure ok
  rw [eq] at ok ⊢
  exact emitRows_of_step (P := fun c => c.Between engine ∧ c.texts ≠ [])
    (fun row mem c h => step row (List.mem_cons_of_mem _ mem) c h.1) (step row List.mem_cons_self c h written) ok

/-- The text of the lines that are finished is read as their examples. -/
lemma readAll_finish (h : c.Between engine) (ne : c.texts ≠ []) :
    ∃ text, c.finish.text = some text ∧ Line.readAll engine text.toList = .ok c.finish.lines := by
  have ended := c.endLine_of_idle h.current h.builder
  refine ⟨"\n".intercalate c.texts, ?_, ?_⟩
  · simp [Context.finish, ended, h.text]
  · have oneLine : ∀ text ∈ c.texts, ∀ d ∈ text.toList, d ≠ '\n' := fun text mem => by
      obtain ⟨native, -, read⟩ := h.lines.exists_of_mem_left mem
      exact read.1
    rw [Line.readAll, split_intercalate ne oneLine, Except.mapM_eq_ok, List.forall₂_map_left_iff, Context.finish, ended]
    exact h.lines.imp fun _ _ line => line.2

/-- If the blocks of a plan are legible and labels stay on their line, the text of an output is read as its lines. -/
lemma readAll_of_legible (native : p.kind = .nativeAndText) (regular : engine.Regular)
    (legible : ∀ b ∈ p.blocks, b.Legible engine) {options : Options} {default : FloatFormat} {root : Record}
    {target : LabelTarget} (oneLine : ∀ text ∈ p.heads root target, '\n' ∉ text.toList) {o : Output}
    (ok : (p.serialize engine options default root target).result = .ok o) :
    ∃ text, o.text = some text ∧ Line.readAll engine text.toList = .ok o.lines := by
  -- the two forms are written side by side
  have start : (p.start engine options default).Between engine :=
    ⟨⟨rfl, text_start native engine options default, .nil⟩, rfl, rfl⟩
  obtain ⟨written, rfl⟩ := serialize_eq_ok ok
  obtain ⟨between, ne⟩ := emitRows_between start regular legible oneLine written
  exact readAll_finish between ne

/-- The blocks of a plan are legible if its features have names and the marshallers of the caller write legibly. -/
lemma legible_of_custom {cat : Catalogue} {r : Registry} {kind : OutputKind} {id : Nat} {p : Plan}
    (compiled : Plan.compile cat r kind id = .ok p) (named : ∀ b ∈ p.blocks, ∀ s ∈ b.steps, s.descriptor.name ≠ "")
    (custom : ∀ b ∈ p.blocks, ∀ s ∈ b.steps, s.isCustom = true → s.Legible engine b.runtime) :
    ∀ b ∈ p.blocks, b.Legible engine := by
  intro b mem
  obtain ⟨type, g, realizes⟩ := realizes_of_mem_blocks compiled mem
  refine ⟨realizes.runtime ▸ Namespace.plain_fullName _ _, fun s step => ?_⟩
  cases source : s.isCustom with
  | true => exact custom b mem s step source
  | false =>
    obtain ⟨leaf, -, bound⟩ := realizes.steps.exists_of_mem_right step
    exact bound.legible (named b mem s step) source engine b.runtime

/-- Reading the text of a serialization gives the examples that were built, line by line and bit for bit. Names of
features may not be empty, marshallers of a caller must write legibly, and labels must stay on their line. -/
theorem readAll_text {cat : Catalogue} {r : Registry} {id : Nat} {options : Options} {p : Plan}
    (compiled : Plan.compile cat r options.outputKind id = .ok p) (textOn : options.text = true) (regular : engine.Regular)
    (named : ∀ b ∈ p.blocks, ∀ s ∈ b.steps, s.descriptor.name ≠ "")
    (custom : ∀ b ∈ p.blocks, ∀ s ∈ b.steps, s.isCustom = true → s.Legible engine b.runtime) {default : FloatFormat}
    {root : Record} {target : LabelTarget} (oneLine : ∀ text ∈ p.heads root target, '\n' ∉ text.toList)
    {o : Output} (ok : (p.serialize engine options default root target).result = .ok o) :
    ∃ text, o.text = some text ∧ Line.readAll engine text.toList = .ok o.lines := by
  have legible := legible_of_custom compiled named custom
  have kind : p.kind = .nativeAndText := by
    rw [(compile_spec compiled).1, Options.outputKind, if_pos textOn]
  exact readAll_of_legible kind regular legible oneLine ok

/-- Every hypothesis of `readAll_text` holds of a shop with a marshaller of its own. -/
theorem readAll_text_shop :
    ∃ o, ((Shop.plan .nativeAndText).serialize (.reference 7) { text := true } .compact (Shop.record (some Shop.item))
        .none).result = .ok o ∧ o.text = some "1 | size:2 price:3 |attrs colordark_red a:b:1 |dense 0:1 1:5 3:7" ∧
      ∃ text, o.text = some text ∧ Line.readAll (.reference 7) text.toList = .ok o.lines := by
  have compiled : Plan.compile Shop.catalogue .empty (Options.outputKind { text := true }) 0 =
      .ok (Shop.plan .nativeAndText) := Shop.compile_eq .nativeAndText
  have named : ∀ b ∈ (Shop.plan .nativeAndText).blocks, ∀ s ∈ b.steps, s.descriptor.name ≠ "" := by decide +kernel
  have name : IsWeightName "a:b" := by
    simpa [IsWeightName] using show "a:b".toList.all (fun d => !isBlank d && d != '|') = true by decide
  have mark : Step.Legible (.reference 7) (.make (some "attrs") none) ⟨Shop.mark, Shop.marker, .override⟩ :=
    fun c _ _ cell => by
      unfold Handle.write
      split
      · exact ⟨name, trivial⟩
      · split
        · exact ⟨name, trivial⟩
        · trivial
  have custom : ∀ b ∈ (Shop.plan .nativeAndText).blocks, ∀ s ∈ b.steps, s.isCustom = true →
      s.Legible (.reference 7) b.runtime := by
    simpa [blocks, Shop.plan, Shop.step, Step.isCustom] using mark
  have ok : ((Shop.plan .nativeAndText).serialize (.reference 7) { text := true } .compact
      (Shop.record (some Shop.item)) .none).result = .ok _ := rfl
  exact ⟨_, ok, by decide +kernel,
    readAll_text compiled rfl (Engine.reference_regular 7) named custom (by decide +kernel) ok⟩

end Plan

end FeatureLines
