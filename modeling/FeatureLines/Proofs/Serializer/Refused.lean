import Mathlib.Algebra.GroupWithZero.Nat
import Mathlib.Algebra.Order.BigOperators.Group.List
import Mathlib.Algebra.Order.Group.Nat
import FeatureLines.Proofs.Serializer.Lines

/-!
# Refused labels

Records are written to one context, and the writing of some may fail. One whose target does not fit is not written at all.
One with a refused label is written up to the line that the label is for, and that line stays, blank. So what is left of
the failures is told by the labels alone (`Context.finish_emitAll`).
-/

namespace FeatureLines

/-! ## Refusals -/

namespace Row

/-- A line without label and namespaces. -/
def blank : Row := ⟨⟨"", [], none⟩, [], none⟩

/-- Why the head of a row is refused, if it is. -/
def refusal? (engine : Engine) (row : Row) : Option LabelError :=
  row.head.bind fun text =>
    match engine.readLabel text.toList with
    | .ok _ => none
    | .error failure => some failure

/-- Rows up to the first refused one, in place of which there is a blank one. -/
def kept (engine : Engine) : List Row → List Row
  | [] => []
  | row :: rest => if (row.refusal? engine).isSome then [blank] else row :: kept engine rest

end Row

/-- A record that is to be written along a plan, with the label given for it. -/
structure Emission where
  plan : Plan
  root : Record
  target : LabelTarget

namespace Emission

def rows (e : Emission) : List Row := e.plan.rows e.root e.target

def misfit? (e : Emission) : Option LabelError := e.plan.misfit? e.root e.target

/-- The first refusal of a label, if the target fits. -/
def refusal? (engine : Engine) (e : Emission) : Option LabelError :=
  match e.misfit? with
  | some _ => none
  | none => e.rows.findSome? (Row.refusal? engine)

def emit (e : Emission) (c : Context) : Attempt := e.plan.serializeInto e.root e.target c

/-- The context in which the lines of a record are written: it is marked if there are several. -/
def mark (e : Emission) (c : Context) : Context := { c with multiLine := c.multiLine || e.plan.isMultiLine }

/-- What is left of a record in a context, refused or not. -/
def leave (e : Emission) (c : Context) : Context :=
  match e.misfit? with
  | some _ => c
  | none => (emitRows (e.mark c) (Row.kept c.engine e.rows)).context

end Emission

namespace Context

/-- Writes records one after the other, whether they fail or not. -/
def emitAll (c : Context) (emissions : List Emission) : Context :=
  emissions.foldl (fun c e => (e.emit c).context) c

/-- The records that are written without a failure. -/
def successes (c : Context) : List Emission → List Emission
  | [] => []
  | e :: rest =>
    if (e.emit c).failure.isNone then e :: (e.emit c).context.successes rest else (e.emit c).context.successes rest

/-- Leaves of the records what is left of them. -/
def leaveAll (c : Context) (emissions : List Emission) : Context := emissions.foldl (fun c e => e.leave c) c

variable {engine : Engine} {natives : List Example} {c : Context}

/-! ## Ended lines -/

/-- Ending a line leaves nothing open. -/
lemma idle_endLine (c : Context) : c.endLine.Idle c.engine c.endLine.natives := by
  have ended : c.endNamespace.current = none ∧ c.endNamespace.engine = c.engine := by
    unfold endNamespace
    cases current : c.current with
    | none => exact ⟨current, rfl⟩
    | some opened => exact ⟨rfl, rfl⟩
  unfold endLine
  simp only
  cases builder : c.endNamespace.builder with
  | none => exact ⟨ended.2, rfl, ended.1, builder⟩
  | some b => exact ⟨ended.2, rfl, ended.1, rfl⟩

@[simp] lemma endLine_endLine (c : Context) : c.endLine.endLine = c.endLine := c.idle_endLine.endLine

/-- A line that is left open is ended when a context is finished. -/
lemma finish_endLine (c : Context) : c.endLine.finish = c.finish := by
  unfold finish
  rw [endLine_endLine]

/-- A new line ends the one before, if that was not done. -/
lemma startLine_endLine (current : c.current = none) : c.endLine.startLine = c.startLine := by
  cases builder : c.builder with
  | none => rw [c.endLine_of_idle current builder]
  | some b =>
    unfold startLine
    rw [c.idle_endLine.builder, builder]
    rfl

/-- Starting a line opens no namespace. -/
lemma current_startLine (current : c.current = none) : c.startLine.current = none := by
  unfold startLine
  split
  · exact c.idle_endLine.current
  · exact current

end Context

/-! ## Rows -/

namespace Row

variable {engine : Engine} {natives : List Example} {c : Context} {row : Row}

/-- Whether a row is written is up to the label alone. -/
lemma emit_failure (row : Row) (c : Context) : (row.emit c).failure = row.refusal? c.engine := by
  have started : c.startLine.engine = c.engine := by
    unfold Context.startLine
    split
    · exact c.idle_endLine.engine_eq
    · rfl
  unfold emit refusal?
  cases row.head with
  | none => rfl
  | some text =>
    unfold Context.writeLabel
    rw [started]
    simp only [Option.bind_some]
    cases c.engine.readLabel text.toList <;> rfl

/-- A row that is refused leaves its line open. -/
lemma emit_of_refused {failure : LabelError} (refused : (row.emit c).failure = some failure) :
    (row.emit c).context = c.startLine := by
  unfold emit at refused ⊢
  cases head : row.head with
  | none =>
    rw [head] at refused
    cases refused
  | some text =>
    rw [head] at refused
    cases written : c.startLine.writeLabel text with
    | ok d =>
      simp only [written] at refused
      cases refused
    | error failure => simp only [written]

/-- A row starts with a new line, so the one before may have been ended. -/
lemma emit_endLine (row : Row) (current : c.current = none) : row.emit c.endLine = row.emit c := by
  unfold emit
  rw [Context.startLine_endLine current]

lemma emit_blank (c : Context) : blank.emit c = ⟨c.startLine.endLine, none⟩ := rfl

/-- Rows leave at least one line, even if the first of them is refused. -/
lemma kept_ne_nil {rows : List Row} (some : rows ≠ []) : kept engine rows ≠ [] := by
  cases rows with
  | nil => exact absurd rfl some
  | cons row rest =>
    unfold kept
    split <;> exact List.cons_ne_nil _ _

end Row

section

variable {engine : Engine} {natives : List Example} {c : Context}

/-- Rows are written up to the first refused one, whose line ends blank. -/
theorem emitRows_kept (h : c.Idle engine natives) (rows : List Row) :
    (emitRows c (Row.kept engine rows)).failure = none ∧
      (emitRows c rows).context.endLine = (emitRows c (Row.kept engine rows)).context ∧
      (emitRows c rows).context.current = none := by
  induction rows generalizing c natives with
  | nil => exact ⟨rfl, h.endLine, h.current⟩
  | cons row rest ih =>
    have fails := row.emit_failure c
    rw [h.engine_eq] at fails
    unfold Row.kept
    cases refused : row.refusal? engine with
    | none =>
      rw [refused] at fails
      obtain ⟨line, idle, -⟩ := Row.emit_idle h fails
      have onward (rows : List Row) : emitRows c (row :: rows) = emitRows (row.emit c).context rows := by
        rw [emitRows_cons, fails]
      rw [Option.isSome_none, if_neg Bool.false_ne_true, onward, onward]
      exact ih idle
    | some failure =>
      rw [refused] at fails
      rw [Option.isSome_some, if_pos rfl, emitRows_singleton, Row.emit_blank, emitRows_cons, fails]
      simp only [Row.emit_of_refused fails]
      exact ⟨trivial, trivial, c.current_startLine h.current⟩

/-- The next row ends a line that was left open. -/
lemma emitRows_endLine {rows : List Row} (some : rows ≠ []) (current : c.current = none) :
    emitRows c.endLine rows = emitRows c rows := by
  cases rows with
  | nil => exact absurd rfl some
  | cons row rest => rw [emitRows_cons, emitRows_cons, row.emit_endLine current]

/-- Whether rows are written is up to their labels. -/
lemma emitRows_failure (h : c.Idle engine natives) (rows : List Row) :
    (emitRows c rows).failure = rows.findSome? (Row.refusal? engine) := by
  induction rows generalizing c natives with
  | nil => rfl
  | cons row rest ih =>
    have fails := row.emit_failure c
    rw [h.engine_eq] at fails
    rw [emitRows_cons, fails, List.findSome?_cons]
    cases refused : row.refusal? engine with
    | none =>
      rw [refused] at fails
      obtain ⟨line, idle, -⟩ := Row.emit_idle h fails
      exact ih idle
    | some failure =>
      simp only [fails, refused]

end

/-! ## Records -/

namespace Emission

variable {engine : Engine} {natives : List Example} {c : Context}

/-- Why the writing of a record fails, if it does. -/
def failure? (engine : Engine) (e : Emission) : Option LabelError := e.misfit?.or (e.refusal? engine)

/-- How many lines are left of a record. -/
def lineCount (engine : Engine) (e : Emission) : Nat :=
  match e.misfit? with
  | some _ => 0
  | none => (Row.kept engine e.rows).length

/-- A record has at least one row. -/
lemma rows_ne_nil (e : Emission) : e.rows ≠ [] := by
  obtain ⟨row, rest, eq, -⟩ := e.plan.rows_eq_cons e.root e.target
  unfold rows
  rw [eq]
  exact List.cons_ne_nil _ _

/-- A target that does not fit leaves the context as it was. -/
lemma emit_of_misfit {e : Emission} {cause : LabelError} (misfit : e.misfit? = some cause) (c : Context) :
    e.emit c = ⟨c, some cause⟩ := by
  unfold misfit? at misfit
  unfold emit Plan.serializeInto
  rw [misfit]

/-- A target that fits has its rows written. -/
lemma emit_of_fit {e : Emission} (fits : e.misfit? = none) (c : Context) :
    e.emit c = emitRows (e.mark c) e.rows := by
  unfold misfit? at fits
  unfold emit Plan.serializeInto
  rw [fits]
  exact e.plan.emit_eq_emitRows e.root e.target c

/-- Marking a context as one of several lines starts no line. -/
lemma mark_idle (h : c.Idle engine natives) (e : Emission) : (e.mark c).Idle engine natives :=
  ⟨h.engine_eq, h.natives_eq, h.current, h.builder⟩

/-- A context is marked before a line is ended or after. -/
lemma endLine_mark (e : Emission) (c : Context) : (e.mark c).endLine = e.mark c.endLine := by
  obtain ⟨engine, text, format, warnings, dictify, memo, builder, line, current, natives, texts, mark, events⟩ := c
  cases current <;> cases builder <;> rfl

/-- Writing a record fails for its target or for a label, and leaves of it what is left by `leave`. -/
theorem emit_spec (current : c.current = none) (e : Emission) :
    (e.emit c).failure = e.failure? c.engine ∧ (e.emit c).context.endLine = e.leave c.endLine ∧
      (e.emit c).context.current = none := by
  unfold failure? refusal? leave
  cases misfit : e.misfit? with
  | some cause =>
    rw [emit_of_misfit misfit]
    exact ⟨rfl, rfl, current⟩
  | none =>
    have idle := mark_idle c.idle_endLine e
    have ended : e.emit c = emitRows (e.mark c.endLine) e.rows := by
      rw [emit_of_fit misfit, ← endLine_mark]
      exact (emitRows_endLine (c := e.mark c) e.rows_ne_nil current).symm
    obtain ⟨-, left, closed⟩ := emitRows_kept idle e.rows
    rw [ended, c.idle_endLine.engine_eq]
    exact ⟨emitRows_failure idle e.rows, left, closed⟩

/-- What is left of a record is so many lines. -/
lemma leave_idle (h : c.Idle engine natives) (e : Emission) :
    ∃ lines, (e.leave c).Idle engine (natives ++ lines) ∧ lines.length = e.lineCount engine := by
  unfold leave lineCount
  cases e.misfit? with
  | some cause => exact ⟨[], by rwa [List.append_nil], rfl⟩
  | none =>
    have idle := mark_idle h e
    obtain ⟨lines, after, laid⟩ := emitRows_idle idle (emitRows_kept idle e.rows).1
    rw [h.engine_eq]
    exact ⟨lines, after, laid.length_eq.symm⟩

end Emission

namespace Context

variable {engine : Engine} {natives : List Example} {c : Context}

/-- What is left of records that are written one after the other. -/
theorem emitAll_spec (current : c.current = none) (emissions : List Emission) :
    (c.emitAll emissions).endLine = c.endLine.leaveAll emissions := by
  induction emissions generalizing c with
  | nil => rfl
  | cons e rest ih =>
    obtain ⟨-, left, closed⟩ := e.emit_spec current
    exact (ih closed).trans (congrArg (fun c => c.leaveAll rest) left)

/-- Between records no line is open, and each record leaves as many lines as it counts. -/
lemma leaveAll_idle (h : c.Idle engine natives) (emissions : List Emission) :
    ∃ lines, (c.leaveAll emissions).Idle engine (natives ++ lines) ∧
      lines.length = (emissions.map (Emission.lineCount engine)).sum := by
  induction emissions generalizing c natives with
  | nil => exact ⟨[], by rwa [List.append_nil], rfl⟩
  | cons e rest ih =>
    obtain ⟨first, idle, count⟩ := e.leave_idle h
    obtain ⟨others, idle, counts⟩ := ih idle
    refine ⟨first ++ others, by rwa [← List.append_assoc], ?_⟩
    rw [List.length_append, count, counts, List.map_cons, List.sum_cons]

/-- The records that are written without a failure are told by their targets and labels. -/
lemma successes_eq_filter (h : c.engine = engine) (current : c.current = none) (emissions : List Emission) :
    c.successes emissions = emissions.filter fun e => (e.failure? engine).isNone := by
  induction emissions generalizing c with
  | nil => rfl
  | cons e rest ih =>
    obtain ⟨fails, left, closed⟩ := e.emit_spec current
    rw [h] at fails
    have same : (e.emit c).context.engine = engine := by
      obtain ⟨lines, idle, -⟩ := e.leave_idle c.idle_endLine
      rw [← left] at idle
      rw [← h, ← idle.engine_eq]
      exact (idle_endLine _).engine_eq.symm
    unfold successes
    rw [fails, ih same closed, List.filter_cons]

/-- Records whose targets do not fit leave nothing. -/
lemma emitAll_of_misfits {emissions : List Emission} (fit : ∀ e ∈ emissions, e.refusal? engine = none) (c : Context) :
    c.emitAll emissions = c.emitAll (emissions.filter fun e => (e.failure? engine).isNone) := by
  induction emissions generalizing c with
  | nil => rfl
  | cons e rest ih =>
    obtain ⟨accepted, others⟩ := List.forall_mem_cons.1 fit
    have onward := ih others (e.emit c).context
    rw [List.filter_cons, Emission.failure?, accepted, Option.or_none]
    cases misfit : e.misfit? with
    | none => exact onward
    | some cause =>
      rw [Emission.emit_of_misfit misfit] at onward
      have idle : c.emitAll (e :: rest) = c.emitAll rest :=
        congrArg (fun attempt : Attempt => attempt.context.emitAll rest) (Emission.emit_of_misfit misfit c)
      exact idle.trans onward

/-- When a label is refused, more lines are left than of the records that are written. -/
lemma sum_lineCount_lt {emissions : List Emission} {e : Emission} (mem : e ∈ emissions)
    (refused : e.refusal? engine ≠ none) :
    ((emissions.filter fun e => (e.failure? engine).isNone).map (Emission.lineCount engine)).sum <
      (emissions.map (Emission.lineCount engine)).sum := by
  have fits : e.misfit? = none := by
    cases misfit : e.misfit? with
    | none => rfl
    | some cause => exact absurd (by rw [Emission.refusal?, misfit]) refused
  have fails : ¬(e.failure? engine).isNone = true := by
    rwa [Emission.failure?, fits, Option.none_or, Option.isNone_iff_eq_none]
  have counted : 0 < e.lineCount engine := by
    rw [Emission.lineCount, fits]
    exact List.length_pos_iff.2 (Row.kept_ne_nil e.rows_ne_nil)
  have fewer (emissions : List Emission) :
      ((emissions.filter fun e => (e.failure? engine).isNone).map (Emission.lineCount engine)).sum ≤
        (emissions.map (Emission.lineCount engine)).sum :=
    (List.filter_sublist.map _).sum_le_sum fun _ _ => Nat.zero_le _
  obtain ⟨before, after, rfl⟩ := List.append_of_mem mem
  have front := fewer before
  have back := fewer after
  have dropped : (e :: after).filter (fun e => (e.failure? engine).isNone) =
      after.filter fun e => (e.failure? engine).isNone := List.filter_cons_of_neg fails
  rw [List.filter_append, dropped, List.map_append, List.map_append, List.sum_append,
    List.sum_append, List.map_cons, List.sum_cons]
  omega

/-- What is left of records that are written to one context: of every record the lines up to the first refused label, whose
own line is blank. So a record that fails leaves no trace exactly if it fails for its target. -/
theorem finish_emitAll (engine : Engine) (options : Options) (default : FloatFormat) (emissions : List Emission) :
    let empty := Context.new engine options default
    (empty.emitAll emissions).finish = (empty.leaveAll emissions).finish ∧
      ((empty.emitAll emissions).finish = (empty.emitAll (empty.successes emissions)).finish ↔
        ∀ e ∈ emissions, e.refusal? engine = none) := by
  intro empty
  have idle : empty.Idle engine [] := idle_new engine options default
  have left (emissions : List Emission) : (empty.emitAll emissions).finish = (empty.leaveAll emissions).finish := by
    rw [← finish_endLine, emitAll_spec idle.current, idle.endLine]
  refine ⟨left emissions, fun same => ?_, fun fit => ?_⟩
  · by_contra refused
    push Not at refused
    obtain ⟨e, mem, refused⟩ := refused
    have counts (emissions : List Emission) :
        (empty.emitAll emissions).finish.lines.length = (emissions.map (Emission.lineCount engine)).sum := by
      obtain ⟨lines, after, count⟩ := leaveAll_idle idle emissions
      rw [left, after.finish, List.nil_append, count]
    have lengths := congrArg (fun o : Output => o.lines.length) same
    simp only [counts, successes_eq_filter idle.engine_eq idle.current] at lengths
    exact absurd lengths (sum_lineCount_lt mem refused).ne'
  · rw [successes_eq_filter idle.engine_eq idle.current, ← emitAll_of_misfits fit]

end Context

/-! ## A refused label between accepted ones -/

namespace Slip

def number : ValueType := ⟨"u8", .scalar .numeric⟩

/-- A slip has a label and a number. -/
def catalogue : Catalogue :=
  [⟨"Slip", [⟨"l", true, .label⟩, ⟨"x", false, .feature { namespaceName := some "n" } number none⟩]⟩]

def x : Descriptor := .ofFeature ⟨1, "x", false⟩ {} ⟨some "n", none⟩ number none

/-- What slips are compiled to. -/
def plan : Plan :=
  ⟨.nativeAndText,
    ⟨"Slip",
      [⟨.make (some "n") none, false,
        [⟨x, ⟨"featwire::marshal::NumericMarshaller", some number, fun _ => Handle.writeNumeric⟩, .builtIn⟩]⟩],
      some ⟨0, "l"⟩⟩,
    none⟩

/-- A slip with some text for its label. -/
def emission (label : String) : Emission :=
  ⟨plan,
    [some (.leaf ⟨0, ⟨"RawLabel", .label⟩⟩ (.label (.raw label))), some (.leaf ⟨1, number⟩ (.scalar (.integer 3)))],
    .none⟩

lemma compile_eq : Plan.compile catalogue .empty .nativeAndText 0 = .ok plan := by
  have extracted : catalogue.extract .root 0 = .ok [x] := by
    simp [Catalogue.extract, Catalogue.extractFields, Catalogue.fields, catalogue, Role.asMember?, Except.bind,
      Except.map, List.range, List.range.loop, x, number, Scope.enter, Scope.root, Descriptor.ofFeature]
  have grouped : groupFeatures "Slip" [x] = .ok [⟨⟨some "n", none, false⟩, [x]⟩] := by
    simp [groupFeatures, Group.collect, Group.add, Descriptor.key, Group.problem?, Group.sorted, x, number,
      Descriptor.ofFeature, Descriptor.isDense, Descriptor.shape, Form.shape]
  have line : LinePlan.compile catalogue .empty 0 = .ok plan.line :=
    Except.bind_eq_ok.2 ⟨_, extracted, Except.bind_eq_ok.2 ⟨_, grouped, rfl⟩⟩
  exact Except.bind_eq_ok.2 ⟨_, line, rfl⟩

end Slip

/-- A slip whose label is refused leaves a blank line between two slips that are written. -/
theorem Context.finish_emitAll_ne :
    Plan.compile Slip.catalogue .empty .nativeAndText 0 = .ok Slip.plan ∧
      let emissions := [Slip.emission " 2 ", Slip.emission "bad", Slip.emission " 2 "]
      let empty := Context.new (.reference 0) { text := true } .compact
      (empty.successes emissions).length = 2 ∧
      (empty.emitAll emissions).finish.text = some "2 |n x:3\n\n2 |n x:3" ∧
      (empty.emitAll (empty.successes emissions)).finish.text = some "2 |n x:3\n2 |n x:3" ∧
      (empty.emitAll emissions).finish ≠ (empty.emitAll (empty.successes emissions)).finish :=
  ⟨Slip.compile_eq, by decide +kernel, by decide +kernel, by decide +kernel, by decide +kernel⟩

end FeatureLines
