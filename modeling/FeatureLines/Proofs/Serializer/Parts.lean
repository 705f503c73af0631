import FeatureLines.Proofs.Marshal.Memo
import FeatureLines.Proofs.Marshal.Resumption
import FeatureLines.Proofs.Serializer.Direct
import FeatureLines.Proofs.Serializer.Happenings
import FeatureLines.Proofs.Serializer.Refused

/-!
# Lines one by one

A context in which lines are written one after the other is back at rest after every line, so each line is what it would
be in a context of its own (`Row.Independent`). This is so if no text is kept. What is written to one context is then put
together from what its parts are when written alone (`Context.finish_emitAll_join`).
-/

namespace FeatureLines

attribute [ext] Context Output

/-- Without lines in front, the text is the same. -/
lemma Context.Resumes.text_finish {c d : Context} (h : c.Resumes [] [] d) : c.finish.text = d.finish.text := by
  have ended := h.endLine
  unfold finish
  simp only [ended.text, ended.texts_eq, List.nil_append]

section

variable {natives : List Example} {texts : List String} {c d : Context}

/-- A context resumes another one through all that is written around the values. -/
lemma Context.Resumes.lockstep (natives : List Example) (texts : List String) :
    Context.Lockstep (Context.Resumes natives texts) where
  beginNamespace h := h.beginNamespace
  preallocate h := h.preallocate
  endNamespace h := h.endNamespace
  startLine h := h.startLine
  writeLabel h := h.writeLabel
  endLine h := h.endLine

lemma Step.emit_resumes (h : c.Resumes natives texts d) (s : Step) (space : Namespace) (root : Record) :
    (s.emit space root c).Resumes natives texts (s.emit space root d) := by
  unfold emit
  cases s.descriptor.value? root with
  | some cell => exact h.run _
  | none => exact h

/-- Any row keeps it, whatever its steps write. -/
lemma Row.lockstep_resumes (natives : List Example) (texts : List String) (row : Row) :
    row.Lockstep (Context.Resumes natives texts) row :=
  .same fun b _ => .same fun s _ _ _ h => s.emit_resumes h b.runtime row.root

/-- Once their lines are started alike, a row is written to both contexts, or it is refused in both for one reason. -/
lemma Row.emit_resumes (h : c.startLine.Resumes natives texts d.startLine) (row : Row) :
    (row.emit c).context.Resumes natives texts (row.emit d).context ∧ (row.emit c).failure = (row.emit d).failure :=
  (Context.Resumes.lockstep natives texts).row (row.lockstep_resumes natives texts) h

/-- Rows are written to both contexts up to the same row. -/
theorem emitRows_resumes (h : c.Resumes natives texts d) (rows : List Row) :
    (emitRows c rows).context.Resumes natives texts (emitRows d rows).context ∧
      (emitRows c rows).failure = (emitRows d rows).failure :=
  (Context.Resumes.lockstep natives texts).emitRows
    (List.forall₂_same.2 fun row _ => row.lockstep_resumes natives texts) h

end

/-! ## At rest -/

namespace Context

/-- Nothing has been written to the context. -/
structure IsFresh (c : Context) : Prop where
  memo : c.memo = []
  builder : c.builder = none
  current : c.current = none
  natives : c.natives = []
  texts : c.texts = []
  multiLine : c.multiLine = false

/-- Between lines, a context has the settings of another one. -/
structure Paused (c fresh : Context) : Prop where
  engine : c.engine = fresh.engine
  text : c.text = fresh.text
  floatFormat : c.floatFormat = fresh.floatFormat
  dictifyAll : c.dictifyAll = fresh.dictifyAll
  current : c.current = none
  builder : c.builder = none

variable {fresh c : Context}

lemma isFresh_new (engine : Engine) (options : Options) (default : FloatFormat) :
    (Context.new engine options default).IsFresh := ⟨rfl, rfl, rfl, rfl, rfl, rfl⟩

lemma IsFresh.paused (h : fresh.IsFresh) : fresh.Paused fresh := ⟨rfl, rfl, rfl, rfl, h.current, h.builder⟩

namespace Paused

lemma idle (h : c.Paused fresh) : c.Idle c.engine c.natives := ⟨rfl, rfl, h.current, h.builder⟩

/-- Without kept texts, a line starts as in a fresh context. -/
lemma startLine (h : c.Paused fresh) (isFresh : fresh.IsFresh) (memo : c.memo = []) :
    c.startLine.Resumes c.natives c.texts fresh.startLine := by
  refine ⟨c.precisionWarnings, c.multiLine, c.events, ?_⟩
  obtain ⟨engine, text, floatFormat, _, dictifyAll, _, _, _, current, _, _, _, _⟩ := c
  obtain ⟨rfl, rfl, rfl, rfl, rfl, rfl⟩ := h
  cases memo
  unfold Context.startLine
  rw [isFresh.builder]
  simp [isFresh.memo, isFresh.current, isFresh.natives, isFresh.texts]

lemma finish (h : c.Paused fresh) :
    c.finish = ⟨c.natives, if fresh.text then some ("\n".intercalate c.texts) else none, c.multiLine⟩ := by
  unfold Context.finish
  simp only [h.idle.endLine, h.text]

end Paused

/-- A line that ends has a text, if texts are made. -/
lemma Begun.texts_endLine {engine : Engine} {natives : List Example} {b : Builder} (h : c.Begun engine natives b)
    (text : c.text = true) : c.endLine.texts ≠ [] := by
  rw [endLine_eq h.current h.builder h.closed]
  simp [text]

/-- A writing that keeps no text leaves those that are kept. -/
lemma At.memo_run {engine : Engine} {text : Bool} {natives : List Example} {space : UInt64} {b : Builder}
    {n : HashedNamespace} (h : c.At engine text natives space b n) {w : Writing} (forgets : w.Forgets engine text space) :
    (c.run w).memo = c.memo := by
  induction w generalizing c n with
  | done => rfl
  | indicator name next ih => exact (ih (h.addIndicator name) forgets).trans ((IsPlain.addIndicator name).memo c)
  | weighted name weight next ih =>
    exact (ih (h.addWeighted name weight) forgets).trans ((IsPlain.addWeighted name weight).memo c)
  | dense anchor weights next ih =>
    exact (ih (h.addDense anchor weights) forgets).trans ((IsPlain.addDense anchor weights).memo c)
  | preallocate additional next ih => exact ih (h.preallocate additional) forgets
  | render rendering next ih => exact (ih _ (h.render rendering) forgets).trans ((IsPlain.render rendering).memo c)
  | remember feature site rendering next ih =>
    rw [Context.run, h.remember_eq forgets.1]
    exact (ih _ (h.render rendering) forgets.2).trans ((IsPlain.render rendering).memo c)
  | look next ih =>
    rw [Context.run, h.view]
    exact ih _ h forgets
  | report event next ih =>
    exact ih (c := c.record event) ⟨⟨h.engine_eq, h.text_eq, h.natives_eq, h.dictifyAll⟩, h.current, h.builder⟩ forgets

end Context

section

variable {engine : Engine} {text : Bool} {natives : List Example} {c : Context} {b : Builder}

lemma Step.memo_emit {space : Namespace} {n : HashedNamespace}
    (h : c.At engine text natives (engine.hashSpace space.fullName) b n) {s : Step} (forgets : s.Forgets engine text space)
    (root : Record) : (s.emit space root c).memo = c.memo := by
  unfold emit
  cases s.descriptor.value? root with
  | some cell => exact h.memo_run (forgets cell)
  | none => rfl

lemma Step.memo_emitAll {space : Namespace} {n : HashedNamespace}
    (h : c.At engine text natives (engine.hashSpace space.fullName) b n) {steps : List Step}
    (forgets : ∀ s ∈ steps, s.Forgets engine text space) (root : Record) :
    (steps.foldl (fun c s => s.emit space root c) c).memo = c.memo := by
  induction steps generalizing c n with
  | nil => rfl
  | cons s steps ih =>
    have first := forgets s List.mem_cons_self
    exact (ih (Step.emit_at h first root) fun s mem => forgets s (List.mem_cons_of_mem _ mem)).trans
      (Step.memo_emit h first root)

lemma Block.memo_emit (h : c.Started engine text natives b) {block : Block}
    (forgets : ∀ s ∈ block.steps, s.Forgets engine text block.runtime) (root : Record) :
    (block.emit root c).memo = c.memo := by
  have begun := h.beginNamespace block.runtime
  refine (Context.IsPlain.endNamespace.memo _).trans ?_
  split
  · exact Step.memo_emitAll begun forgets root
  · exact Step.memo_emitAll (begun.preallocate block.room) forgets root

lemma LinePlan.memo_emitBlocks (h : c.Started engine text natives b) {p : LinePlan}
    (forgets : ∀ block ∈ p.blocks, ∀ s ∈ block.steps, s.Forgets engine text block.runtime) (root : Record) :
    (p.emitBlocks root c).memo = c.memo := by
  unfold emitBlocks
  generalize p.blocks = blocks at forgets
  induction blocks generalizing c b with
  | nil => rfl
  | cons block blocks ih =>
    have first := forgets block List.mem_cons_self
    exact (ih (Block.emit_started h first root) fun block mem => forgets block (List.mem_cons_of_mem _ mem)).trans
      (Block.memo_emit h first root)

/-- A row that keeps no text leaves those that are kept. -/
lemma Row.memo_emit (h : c.Resting engine text natives) {row : Row}
    (forgets : ∀ block ∈ row.plan.blocks, ∀ s ∈ block.steps, s.Forgets engine text block.runtime) :
    (row.emit c).context.memo = c.memo := by
  have started : c.startLine.memo = c.memo := Context.IsPlain.startLine.memo c
  unfold emit
  cases row.head with
  | none =>
    have written := LinePlan.memo_emitBlocks h.startLine forgets row.root
    exact ((Context.IsPlain.endLine.memo _).trans written).trans started
  | some label =>
    simp only
    cases labelled : c.startLine.writeLabel label with
    | error failure => exact started
    | ok d =>
      obtain ⟨_, -, ready⟩ := h.startLine.writeLabel labelled
      obtain ⟨_, -, rfl⟩ := Except.map_eq_ok.1 labelled
      have written := LinePlan.memo_emitBlocks ready forgets row.root
      exact ((Context.IsPlain.endLine.memo _).trans written).trans started

end

/-! ## Rows on their own -/

namespace Row

variable {fresh c : Context} {kept : List (Site × String) → Prop} {row : Row}

/-- A row that is written leaves the context at rest. -/
lemma emit_paused (h : c.Paused fresh) (ok : (row.emit c).failure = none) : (row.emit c).context.Paused fresh := by
  have reports := row.emit_reports c
  obtain ⟨_, idle, -⟩ := Row.emit_idle h.idle ok
  exact ⟨reports.engine.trans h.engine, reports.text.trans h.text, reports.floatFormat.trans h.floatFormat,
    reports.dictifyAll.trans h.dictifyAll, idle.current, idle.builder⟩

/-- A row that is written has a text, if texts are made. -/
lemma texts_emit (h : c.Paused fresh) (text : c.text = true) (ok : (row.emit c).failure = none) :
    (row.emit c).context.texts ≠ [] := by
  have begun := h.idle.startLine
  have started := Context.Reports.startLine c
  unfold emit at ok ⊢
  cases head : row.head with
  | none =>
    obtain ⟨_, built, -⟩ := row.plan.emitBlocks_begun begun row.root
    exact built.texts_endLine ((row.plan.emitBlocks_reports row.root _).text.trans (started.text.trans text))
  | some label =>
    rw [head] at ok
    cases labelled : c.startLine.writeLabel label with
    | error failure =>
      simp only [labelled] at ok
      cases ok
    | ok d =>
      obtain ⟨_, -, ready⟩ := begun.writeLabel labelled
      obtain ⟨_, built, -⟩ := row.plan.emitBlocks_begun ready row.root
      have same := started.quiet (.writeLabel labelled)
      simp only [labelled]
      exact built.texts_endLine ((row.plan.emitBlocks_reports row.root _).text.trans (same.text.trans text))

/-- Whatever was written before, a row is written as in a fresh context, and the texts that are kept stay as they may be. -/
def Independent (fresh : Context) (kept : List (Site × String) → Prop) (row : Row) : Prop :=
  ∀ c : Context, c.Paused fresh → kept c.memo →
    (row.emit c).failure = (row.emit fresh).failure ∧
      (row.emit c).context.natives = c.natives ++ (row.emit fresh).context.natives ∧
      (row.emit c).context.texts = c.texts ++ (row.emit fresh).context.texts ∧
      kept (row.emit c).context.memo

/-- A row that keeps no text is independent. -/
lemma independent_of_forgets (isFresh : fresh.IsFresh) (off : fresh.dictifyAll = false)
    (forgets : ∀ b ∈ row.plan.blocks, ∀ s ∈ b.steps, s.Forgets fresh.engine fresh.text b.runtime) :
    row.Independent fresh (· = []) := by
  intro c paused memo
  have resting : c.Resting fresh.engine fresh.text c.natives :=
    ⟨⟨paused.engine, paused.text, rfl, paused.dictifyAll.trans off⟩, paused.current, paused.builder⟩
  obtain ⟨resumes, same⟩ := row.emit_resumes (paused.startLine isFresh memo)
  exact ⟨same, resumes.natives_eq, resumes.texts_eq, (Row.memo_emit resting forgets).trans memo⟩

end Row

/-- Rows that are independent give one after the other what they give on their own. -/
theorem emitRows_independent {fresh c : Context} {kept : List (Site × String) → Prop} {rows : List Row}
    (independent : ∀ row ∈ rows, row.Independent fresh kept) (paused : c.Paused fresh) (memo : kept c.memo) :
    (emitRows c rows).failure = rows.findSome? (fun row => (row.emit fresh).failure) ∧
      ((emitRows c rows).failure = none →
        (emitRows c rows).context.Paused fresh ∧ kept (emitRows c rows).context.memo ∧
        (emitRows c rows).context.natives = c.natives ++ rows.flatMap (fun row => (row.emit fresh).context.natives) ∧
        (emitRows c rows).context.texts = c.texts ++ rows.flatMap fun row => (row.emit fresh).context.texts) := by
  induction rows generalizing c with
  | nil => exact ⟨rfl, fun _ => ⟨paused, memo, by simp [emitRows], by simp [emitRows]⟩⟩
  | cons row rest ih =>
    obtain ⟨failed, natives, texts, memo'⟩ := independent row List.mem_cons_self c paused memo
    rw [emitRows_cons, List.findSome?_cons, ← failed]
    cases written : (row.emit c).failure with
    | some cause =>
      simp only [written, reduceCtorEq, false_implies, and_true]
    | none =>
      simp only [List.flatMap_cons, ← List.append_assoc, ← natives, ← texts]
      exact ih (fun row mem => independent row (List.mem_cons_of_mem _ mem)) (row.emit_paused paused written) memo'

/-! ## Outputs in a row -/

/-- Lines that are put together from those of parts, are so in pieces. -/
lemma intercalate_flatten {sep : String} {pieces : List (List String)} (ne : ∀ piece ∈ pieces, piece ≠ []) :
    sep.intercalate pieces.flatten = sep.intercalate (pieces.map sep.intercalate) := by
  induction pieces with
  | nil => rfl
  | cons piece rest ih =>
    obtain ⟨some, others⟩ := List.forall_mem_cons.1 ne
    cases rest with
    | nil => simp
    | cons next rest =>
      have more : (next :: rest).flatten ≠ [] := by simp [(List.forall_mem_cons.1 others).1]
      rw [List.flatten_cons, String.intercalate_append_of_ne_nil some more, ih others]
      exact (String.intercalate_cons_of_ne_nil (List.cons_ne_nil _ _)).symm

namespace Output

/-- Outputs one after the other, as one. -/
def join (outputs : List Output) : Output where
  lines := outputs.flatMap lines
  text := (outputs.mapM text).map "\n".intercalate
  multiLine := outputs.any multiLine

/-- What contexts at rest give out, one after the other. -/
lemma join_finish {α : Type} {fresh : Context} {f : α → Context} {items : List α} (some : items ≠ [])
    (paused : ∀ a ∈ items, (f a).Paused fresh) (texts : fresh.text = true → ∀ a ∈ items, (f a).texts ≠ []) :
    join (items.map fun a => (f a).finish) =
      ⟨items.flatMap fun a => (f a).natives,
        if fresh.text then Option.some ("\n".intercalate (items.flatMap fun a => (f a).texts)) else none,
        items.any fun a => (f a).multiLine⟩ := by
  have outputs : items.map (fun a => (f a).finish) = items.map fun a =>
      ⟨(f a).natives, if fresh.text then Option.some ("\n".intercalate (f a).texts) else none, (f a).multiLine⟩ :=
    List.map_congr_left fun a mem => (paused a mem).finish
  rw [outputs]
  refine Output.ext ?_ ?_ ?_
  · exact List.flatMap_map ..
  · rw [join, List.mapM_map]
    cases on : fresh.text with
    | false =>
      cases items with
      | nil => exact absurd rfl some
      | cons a rest => rw [List.mapM_cons]; rfl
    | true =>
      have joined : (items.map fun a => (f a).texts).flatten = items.flatMap fun a => (f a).texts := rfl
      have made := List.mapM_pure (m := Option) (l := items) (f := fun a => "\n".intercalate (f a).texts)
      rw [← joined, intercalate_flatten (by simpa using texts on), List.map_map]
      exact congrArg (Option.map _) made
  · exact List.any_map ..

end Output

/-! ## Records on their own -/

namespace Emission

variable {fresh c : Context} {kept : List (Site × String) → Prop} {e : Emission}

lemma mark_paused (h : c.Paused fresh) (e : Emission) : (e.mark c).Paused fresh :=
  ⟨h.engine, h.text, h.floatFormat, h.dictifyAll, h.current, h.builder⟩

/-- The rows of a record give one after the other what they give on their own. -/
lemma emit_independent (independent : ∀ row ∈ e.rows, row.Independent fresh kept) (paused : c.Paused fresh)
    (memo : kept c.memo) (ok : (e.emit c).failure = none) :
    (e.emit c).context.Paused fresh ∧ kept (e.emit c).context.memo ∧
      (e.emit c).context.natives = c.natives ++ e.rows.flatMap (fun row => (row.emit fresh).context.natives) ∧
      (e.emit c).context.texts = c.texts ++ e.rows.flatMap (fun row => (row.emit fresh).context.texts) ∧
      (e.emit c).context.multiLine = (c.multiLine || e.plan.isMultiLine) := by
  cases misfit : e.misfit? with
  | some cause =>
    rw [emit_of_misfit misfit] at ok
    cases ok
  | none =>
    rw [emit_of_fit misfit] at ok ⊢
    obtain ⟨paused, memo, natives, texts⟩ := (emitRows_independent independent (mark_paused paused e) memo).2 ok
    exact ⟨paused, memo, natives, texts, (emitRows_reports e.rows (e.mark c)).multiLine⟩

/-- A record that is written has a text, if texts are made. -/
lemma texts_emit (isFresh : fresh.IsFresh) (independent : ∀ row ∈ e.rows, row.Independent fresh kept) (memo : kept [])
    (text : fresh.text = true) (ok : (e.emit fresh).failure = none) : (e.emit fresh).context.texts ≠ [] := by
  have written := emit_independent independent isFresh.paused (isFresh.memo ▸ memo) ok
  obtain ⟨row, rest, rows⟩ := List.exists_cons_of_ne_nil e.rows_ne_nil
  have first : (row.emit fresh).failure = none := by
    cases misfit : e.misfit? with
    | some cause =>
      rw [emit_of_misfit misfit] at ok
      cases ok
    | none =>
      rw [emit_of_fit misfit, rows] at ok
      have same := row.emit_failure (e.mark fresh)
      rw [(emitRows_cons_failure ok).1] at same
      exact (row.emit_failure fresh).trans same.symm
  rw [written.2.2.2.1, rows, List.flatMap_cons]
  exact List.append_ne_nil_of_right_ne_nil _
    (List.append_ne_nil_of_left_ne_nil (row.texts_emit isFresh.paused text first) _)

end Emission

/-- Records that are written one after the other give what each gives in a context of its own. -/
theorem Context.emitAll_independent {fresh c : Context} {kept : List (Site × String) → Prop} {emissions : List Emission}
    (isFresh : fresh.IsFresh) (nothing : kept [])
    (independent : ∀ e ∈ emissions, ∀ row ∈ e.rows, row.Independent fresh kept)
    (accepted : ∀ e ∈ emissions, e.failure? fresh.engine = none) (paused : c.Paused fresh) (memo : kept c.memo) :
    (c.emitAll emissions).Paused fresh ∧
      (c.emitAll emissions).natives = c.natives ++ emissions.flatMap (fun e => (e.emit fresh).context.natives) ∧
      (c.emitAll emissions).texts = c.texts ++ emissions.flatMap (fun e => (e.emit fresh).context.texts) ∧
      (c.emitAll emissions).multiLine = (c.multiLine || emissions.any fun e => (e.emit fresh).context.multiLine) := by
  induction emissions generalizing c with
  | nil => exact ⟨paused, by simp [emitAll], by simp [emitAll], by simp [emitAll]⟩
  | cons e rest ih =>
    obtain ⟨own, others⟩ := List.forall_mem_cons.1 independent
    obtain ⟨fine, fines⟩ := List.forall_mem_cons.1 accepted
    have ok : (e.emit c).failure = none := by rw [(e.emit_spec paused.current).1, paused.engine, fine]
    have okAlone : (e.emit fresh).failure = none := by rw [(e.emit_spec isFresh.current).1, fine]
    obtain ⟨paused', memo', natives, texts, multiLine⟩ := Emission.emit_independent own paused memo ok
    obtain ⟨-, -, lines, shown, marked⟩ :=
      Emission.emit_independent own isFresh.paused (isFresh.memo ▸ nothing) okAlone
    rw [isFresh.natives, List.nil_append] at lines
    rw [isFresh.texts, List.nil_append] at shown
    rw [isFresh.multiLine, Bool.false_or] at marked
    obtain ⟨rested, all, allShown, allMarked⟩ := ih others fines paused' memo'
    refine ⟨rested, all.trans ?_, allShown.trans ?_, allMarked.trans ?_⟩
    · rw [natives, ← lines, List.flatMap_cons, List.append_assoc]
    · rw [texts, ← shown, List.flatMap_cons, List.append_assoc]
    · rw [multiLine, List.any_cons, marked, Bool.or_assoc]

/-- Lines of one context are independent. If no texts are kept, records that are written one after the other give the
lines that each gives in a context of its own, their texts one after the other, and the mark of several lines if one of
them has it. -/
theorem Context.finish_emitAll_join (engine : Engine) {options : Options} (default : FloatFormat)
    (off : options.dictify = false) {emissions : List Emission} (some : emissions ≠ [])
    (compiled : ∀ e ∈ emissions, ∃ c r kind id, Plan.compile c r kind id = .ok e.plan)
    (members : ∀ e ∈ emissions, ∀ b ∈ e.plan.blocks, ∀ s ∈ b.steps, s.descriptor.dictify = false)
    (custom : ∀ e ∈ emissions, ∀ b ∈ e.plan.blocks, ∀ s ∈ b.steps, s.isCustom = true →
      s.Forgets engine options.text b.runtime)
    (ok : (Context.new engine options default).successes emissions = emissions) :
    let empty := Context.new engine options default
    (∀ e ∈ emissions, (e.emit empty).failure = none) ∧
      (empty.emitAll emissions).finish = Output.join (emissions.map fun e => (e.emit empty).context.finish) := by
  intro empty
  have isFresh : empty.IsFresh := isFresh_new engine options default
  have accepted : ∀ e ∈ emissions, e.failure? engine = none := by
    rw [successes_eq_filter rfl rfl, List.filter_eq_self] at ok
    exact fun e mem => Option.isNone_iff_eq_none.1 (ok e mem)
  have written : ∀ e ∈ emissions, (e.emit empty).failure = none := fun e mem =>
    (e.emit_spec isFresh.current).1.trans (accepted e mem)
  have independent : ∀ e ∈ emissions, ∀ row ∈ e.rows, row.Independent empty (· = []) := fun e mem row line => by
    obtain ⟨c, r, kind, id, compiled⟩ := compiled e mem
    have forgets := Plan.forgets_of_custom compiled (members e mem) (custom e mem)
    exact Row.independent_of_forgets isFresh off fun b block => forgets b (Plan.mem_blocks_of_mem_rows line block)
  have paused : ∀ e ∈ emissions, (e.emit empty).context.Paused empty := fun e mem =>
    (Emission.emit_independent (independent e mem) isFresh.paused isFresh.memo (written e mem)).1
  have texts : empty.text = true → ∀ e ∈ emissions, (e.emit empty).context.texts ≠ [] := fun text e mem =>
    e.texts_emit isFresh (independent e mem) rfl text (written e mem)
  obtain ⟨rested, natives, shown, multiLine⟩ :=
    emitAll_independent isFresh (by rfl) independent accepted isFresh.paused isFresh.memo
  refine ⟨written, ?_⟩
  rw [Output.join_finish some paused texts, rested.finish, natives, shown, multiLine, isFresh.natives, isFresh.texts,
    isFresh.multiLine, Bool.false_or, List.nil_append, List.nil_append]

/-! ## Records of several lines among records of one -/

namespace Batch

/-- A batch has a size and slips as its candidates. -/
def catalogue : Catalogue :=
  ⟨"Batch",
    [⟨"size", false, .feature { namespaceName := some "b" } Slip.number none⟩, ⟨"slips", true, .actions 1⟩]⟩ ::
    Slip.catalogue

def size : Descriptor := .ofFeature ⟨0, "size", false⟩ {} ⟨some "b", none⟩ Slip.number none

/-- What batches are compiled to. -/
def plan (kind : OutputKind) : Plan :=
  ⟨kind,
    ⟨"Batch",
      [⟨.make (some "b") none, false,
        [⟨size, ⟨"featwire::marshal::NumericMarshaller", some Slip.number, fun _ => Handle.writeNumeric⟩, .builtIn⟩]⟩],
      none⟩,
    some ⟨⟨1, "slips"⟩, Slip.plan.line⟩⟩

/-- A slip with some number, whose label may be missing. -/
def slip (label : Option String) (address : Nat) (number : Int) : Record :=
  [label.map fun text => .leaf ⟨address, ⟨"RawLabel", .label⟩⟩ (.label (.raw text)),
    some (.leaf ⟨address + 1, Slip.number⟩ (.scalar (.integer number)))]

def record (slips : List Record) : Record :=
  [some (.leaf ⟨0, Slip.number⟩ (.scalar (.integer 7))), some (.candidates ⟨1, ⟨"Vec<Slip>", .candidates 1⟩⟩ slips)]

lemma compile_eq (kind : OutputKind) : Plan.compile catalogue .empty kind 0 = .ok (plan kind) := by
  have extracted : catalogue.extract .root 0 = .ok [size] := by
    simp [Catalogue.extract, Catalogue.extractFields, Catalogue.fields, catalogue, Slip.catalogue, Role.asMember?,
      Except.bind, Except.map, List.range, List.range.loop, size, Slip.number, Scope.enter, Scope.root,
      Descriptor.ofFeature]
  have grouped : groupFeatures "Batch" [size] = .ok [⟨⟨some "b", none, false⟩, [size]⟩] := by
    simp [groupFeatures, Group.collect, Group.add, Descriptor.key, Group.problem?, Group.sorted, size, Slip.number,
      Descriptor.ofFeature, Descriptor.isDense, Descriptor.shape, Form.shape]
  have line : LinePlan.compile catalogue .empty 0 = .ok (plan kind).line :=
    Except.bind_eq_ok.2 ⟨_, extracted, Except.bind_eq_ok.2 ⟨_, grouped, rfl⟩⟩
  have extractedSlip : catalogue.extract .root 1 = .ok [Slip.x] := by
    simp [Catalogue.extract, Catalogue.extractFields, Catalogue.fields, catalogue, Slip.catalogue, Role.asMember?,
      Except.bind, Except.map, List.range, List.range.loop, Slip.x, Slip.number, Scope.enter, Scope.root,
      Descriptor.ofFeature]
  have groupedSlip : groupFeatures "Slip" [Slip.x] = .ok [⟨⟨some "n", none, false⟩, [Slip.x]⟩] := by
    simp [groupFeatures, Group.collect, Group.add, Descriptor.key, Group.problem?, Group.sorted, Slip.x, Slip.number,
      Descriptor.ofFeature, Descriptor.isDense, Descriptor.shape, Form.shape]
  have candidate : LinePlan.compile catalogue .empty 1 = .ok Slip.plan.line :=
    Except.bind_eq_ok.2 ⟨_, extractedSlip, Except.bind_eq_ok.2 ⟨_, groupedSlip, rfl⟩⟩
  exact Except.bind_eq_ok.2 ⟨_, line, Except.bind_eq_ok.2 ⟨some (⟨1, "slips"⟩, 1), rfl,
    Except.bind_eq_ok.2 ⟨_, candidate, rfl⟩⟩⟩

end Batch

/-- A batch between two slips, with a label given for its second candidate. -/
theorem Context.finish_emitAll_join_batch :
    let batch := Batch.record [Batch.slip (some "4") 2 5, Batch.slip (some "bad") 4 6, Batch.slip none 6 0]
    let emissions : List Emission :=
      [Slip.emission " 2 ", ⟨Batch.plan .native, batch, .action 1 (.raw "1")⟩, Slip.emission "3"]
    let empty := Context.new (.reference 0) { text := true } .compact
    (empty.emitAll emissions).finish = Output.join (emissions.map fun e => (e.emit empty).context.finish) ∧
      (empty.emitAll emissions).finish.multiLine = true ∧
      (empty.emitAll emissions).finish.text = some "2 |n x:3\nshared |b size:7\n4 |n x:5\n1 |n x:6\n\n3 |n x:3" := by
  intro batch emissions empty
  have compiled : ∀ e ∈ emissions, ∃ c r kind id, Plan.compile c r kind id = .ok e.plan := by
    have slip (label : String) : ∃ c r kind id, Plan.compile c r kind id = .ok (Slip.emission label).plan :=
      ⟨_, _, _, _, Slip.compile_eq⟩
    simp only [emissions, List.forall_mem_cons, List.not_mem_nil, false_implies, implies_true, and_true]
    exact ⟨slip _, ⟨_, _, _, _, Batch.compile_eq .native⟩, slip _⟩
  have members : ∀ e ∈ emissions, ∀ b ∈ e.plan.blocks, ∀ s ∈ b.steps, s.descriptor.dictify = false := by decide +kernel
  have builtIn : ∀ e ∈ emissions, ∀ b ∈ e.plan.blocks, ∀ s ∈ b.steps, s.isCustom = false := by decide +kernel
  have accepted : ∀ e ∈ emissions, (e.failure? (.reference 0)).isNone = true := by decide +kernel
  have ok : empty.successes emissions = emissions := by
    rw [successes_eq_filter rfl rfl]
    exact List.filter_eq_self.2 accepted
  obtain ⟨-, joined⟩ := finish_emitAll_join (.reference 0) .compact rfl (List.cons_ne_nil _ _) compiled members
    (fun e mem b block s step custom => by rw [builtIn e mem b block s step] at custom; cases custom) ok
  exact ⟨joined, by decide +kernel, by decide +kernel⟩

end FeatureLines
