import FeatureLines.Proofs.Serializer.Parts
import FeatureLines.Proofs.Serializer.Shared

/-!
# Records with candidates

A record with candidates is serialized to a line that the candidates share and a line for each of them. Each of these
lines is the one line that a plan without candidates gives: the shared one that of the record's own namespaces with a
fixed label, and the others those of the candidates' own plan (`Plan.parts`). Where texts are kept, they are so from line
to line, so they must be right for every line (`Plan.KeepsSafely`).

Main statement: `Plan.serialize_candidates`.
-/

namespace FeatureLines

/-! ## Rows in a context of their own -/

/-- What an attempt gives out, if nothing stopped it. -/
def Attempt.output (attempt : Attempt) : Except LabelError Output :=
  match attempt.failure with
  | some failure => .error failure
  | none => .ok attempt.context.finish

/-- What a row gives in a context of its own. -/
def Row.alone (fresh : Context) (row : Row) : Except LabelError Output := (row.emit fresh).output

/-- The row with some text at its head, or none. -/
def Row.headed (row : Row) (head : Option String) : Row := { row with head }

/-- Whatever its head is, a row comes to one line, with the label that the head makes and with the same namespaces. -/
def Row.Written (fresh : Context) (row : Row) : Prop :=
  ∃ namespaces, ∀ head, ((row.headed head).emit fresh).failure = none → ∃ label,
    (row.headed head).label fresh.engine = .ok label ∧
      ((row.headed head).emit fresh).context.natives = [⟨label, namespaces, fresh.engine.newExample.leased⟩]

section

variable {fresh c : Context} {kept : List (Site × String) → Prop} {rows : List Row} {row : Row}

/-- A row that is written comes to one line, whose label its head makes. -/
lemma Row.Written.line (h : row.Written fresh) (ok : (row.emit fresh).failure = none) :
    ∃ line, (row.emit fresh).context.natives = [line] ∧ row.label fresh.engine = .ok line.label := by
  obtain ⟨namespaces, spec⟩ := h
  obtain ⟨label, accepted, made⟩ := spec row.head ok
  exact ⟨_, made, accepted⟩

/-- A row that comes to one line gives this line alone. -/
lemma Row.alone_eq_ok (isFresh : fresh.IsFresh) (ok : (row.emit fresh).failure = none) {line : Example}
    (made : (row.emit fresh).context.natives = [line]) : ∃ text, row.alone fresh = .ok ⟨[line], text, false⟩ := by
  have multiLine := (row.emit_reports fresh).multiLine.trans isFresh.multiLine
  unfold alone Attempt.output
  rw [ok]
  simp only [(row.emit_paused isFresh.paused ok).finish, made, multiLine]
  exact ⟨_, rfl⟩

/-- Rows succeed when each does, and fail as the first that does not. -/
lemma mapM_alone (fresh : Context) (rows : List Row) :
    rows.mapM (Row.alone fresh) =
      match rows.findSome? fun row => (row.emit fresh).failure with
      | some failure => .error failure
      | none => .ok (rows.map fun row => (row.emit fresh).context.finish) := by
  induction rows with
  | nil => rfl
  | cons row rest ih =>
    rw [List.mapM_cons, ih, List.findSome?_cons, Row.alone, Attempt.output]
    cases (row.emit fresh).failure with
    | some failure => rfl
    | none =>
      cases rest.findSome? fun row => (row.emit fresh).failure <;> rfl

/-- Rows give in one context what they give on their own, one after the other. -/
theorem finish_emitRows (isFresh : fresh.IsFresh) (some : rows ≠ [])
    (independent : ∀ row ∈ rows, row.Independent fresh kept) (paused : c.Paused fresh) (memo : kept c.memo)
    (natives : c.natives = []) (texts : c.texts = []) :
    (emitRows c rows).output =
      (rows.mapM (Row.alone fresh)).map fun outputs => { Output.join outputs with multiLine := c.multiLine } := by
  obtain ⟨failed, written⟩ := emitRows_independent independent paused memo
  rw [mapM_alone, Attempt.output, failed]
  cases all : rows.findSome? fun row => (row.emit fresh).failure with
  | some failure => rfl
  | none =>
    obtain ⟨rested, -, lines, shown⟩ := written (failed.trans all)
    have each : ∀ row ∈ rows, (row.emit fresh).failure = none := List.findSome?_eq_none_iff.1 all
    have joined := Output.join_finish some (fun row mem => row.emit_paused isFresh.paused (each row mem))
      fun text row mem => row.texts_emit isFresh.paused text (each row mem)
    simp only [rested.finish, lines, shown, (emitRows_reports rows c).multiLine, natives, texts, List.nil_append,
      Except.map, joined]

end

/-! ## Texts that are kept from line to line -/

section

variable {fresh : Context} {texts : Site → String} {row : Row}

/-- In a context at rest, a row that keeps no text comes to its line. -/
lemma Row.written_of_forgets (isFresh : fresh.IsFresh) (off : fresh.dictifyAll = false)
    (forgets : ∀ b ∈ row.plan.blocks, ∀ s ∈ b.steps, s.Forgets fresh.engine fresh.text b.runtime) : row.Written fresh := by
  have resting : fresh.Resting fresh.engine fresh.text [] :=
    ⟨⟨rfl, rfl, isFresh.natives, off⟩, isFresh.current, isFresh.builder⟩
  refine ⟨row.plan.written fresh.engine fresh.text row.root, fun head ok => ?_⟩
  have same : ∀ b ∈ (row.headed head).plan.blocks, ∀ s ∈ b.steps, s.Forgets fresh.engine fresh.text b.runtime := forgets
  obtain ⟨line, made, rested⟩ := Row.emit_resting resting same ok
  obtain ⟨label, accepted, rfl⟩ := Except.map_eq_ok.1 made
  exact ⟨label, accepted, rested.natives_eq⟩

/-- A step that is made to keep no texts keeps none, unless its marshaller is the caller's. -/
lemma Step.Realizes.forgets_forgetting {type : String} {r : Registry} {leaf : Leaf} {s : Step}
    (realizes : s.Realizes type r leaf) (builtIn : s.isCustom = false) (engine : Engine) (text : Bool)
    (space : Namespace) : s.forgetting.Forgets engine text space := fun cell =>
  (realizes.ordinary_for builtIn s.forgetting.descriptor.feature space cell).forgets rfl

/-- No marshaller of the row is the caller's. -/
structure Row.BuiltIn (row : Row) : Prop where
  realizes : ∃ r, ∀ b ∈ row.plan.blocks, ∃ type g, b.Realizes type r g
  builtIn : ∀ b ∈ row.plan.blocks, ∀ s ∈ b.steps, s.isCustom = false

lemma Row.BuiltIn.forgets_forgetting (own : row.BuiltIn) (engine : Engine) (text : Bool) :
    ∀ b ∈ row.forgetting.plan.blocks, ∀ s ∈ b.steps, s.Forgets engine text b.runtime := by
  obtain ⟨r, realizes⟩ := own.realizes
  intro b' mem s' mem'
  obtain ⟨b, block, rfl⟩ := List.mem_map.1 mem
  obtain ⟨s, step, rfl⟩ := List.mem_map.1 mem'
  obtain ⟨type, g, realized⟩ := realizes b block
  obtain ⟨leaf, -, bound⟩ := realized.steps.exists_of_mem_right step
  exact bound.forgets_forgetting (own.builtIn b block s step) engine text b.runtime

lemma Context.IsFresh.keeps (isFresh : fresh.IsFresh) (texts : Site → String) : fresh.Keeps texts := by
  intro site text found
  rw [isFresh.memo] at found
  cases found

/-- A row that keeps texts is independent if every site stands for one text. -/
lemma Row.independent_of_tells (isFresh : fresh.IsFresh) (own : row.BuiltIn) (tells : row.Tells texts) :
    row.Independent fresh fun memo => ∀ site text, memo.lookup site = some text → text = texts site := by
  intro c paused memo
  obtain ⟨r, realizes⟩ := own.realizes
  have twin : row.Twin texts fresh.dictifyAll fresh.dictifyAll row.forgetting :=
    row.twin_forgetting realizes own.builtIn (tells.keepsTold realizes _)
  -- a twin that keeps no texts, in a context where none are kept, is written as in a fresh context
  have emptied : c.Twins texts fresh.dictifyAll fresh.dictifyAll { c with memo := [] } :=
    ⟨rfl, memo, (fun _ _ found => nomatch found), paused.dictifyAll, paused.dictifyAll⟩
  have same : fresh.Twins texts fresh.dictifyAll fresh.dictifyAll fresh :=
    ⟨rfl, isFresh.keeps texts, isFresh.keeps texts, rfl, rfl⟩
  have pausedEmptied : ({ c with memo := [] } : Context).Paused fresh :=
    ⟨paused.engine, paused.text, paused.floatFormat, paused.dictifyAll, paused.current, paused.builder⟩
  obtain ⟨left, failedLeft⟩ := Row.emit_twins twin emptied
  obtain ⟨right, failedRight⟩ := Row.emit_twins twin same
  obtain ⟨resumes, failed⟩ := row.forgetting.emit_resumes (pausedEmptied.startLine isFresh rfl)
  refine ⟨failedLeft.trans (failed.trans failedRight.symm), ?_, ?_, left.left⟩
  · rw [left.see Context.natives fun _ => rfl, resumes.natives_eq, right.see Context.natives fun _ => rfl]
  · rw [left.see Context.texts fun _ => rfl, resumes.texts_eq, right.see Context.texts fun _ => rfl]

lemma Row.written_of_tells (isFresh : fresh.IsFresh) (own : row.BuiltIn) (tells : row.Tells texts) : row.Written fresh := by
  obtain ⟨r, realizes⟩ := own.realizes
  have same : fresh.Twins texts fresh.dictifyAll false { fresh with dictifyAll := false } :=
    ⟨rfl, isFresh.keeps texts, isFresh.keeps texts, rfl, rfl⟩
  have resting : ({ fresh with dictifyAll := false } : Context).Resting fresh.engine fresh.text [] :=
    ⟨⟨rfl, rfl, isFresh.natives, rfl⟩, isFresh.current, isFresh.builder⟩
  refine ⟨row.forgetting.plan.written fresh.engine fresh.text row.root, fun head ok => ?_⟩
  have headed : (row.headed head).BuiltIn := ⟨⟨r, realizes⟩, own.builtIn⟩
  have twin : (row.headed head).Twin texts fresh.dictifyAll false (row.headed head).forgetting :=
    Row.twin_forgetting realizes own.builtIn (tells.keepsTold realizes _)
  obtain ⟨alike, failed⟩ := Row.emit_twins twin same
  have forgets := headed.forgets_forgetting fresh.engine fresh.text
  obtain ⟨line, made, rested⟩ := Row.emit_resting resting forgets (failed.symm.trans ok)
  obtain ⟨label, accepted, rfl⟩ := Except.map_eq_ok.1 made
  exact ⟨label, accepted, (alike.see Context.natives fun _ => rfl).trans rested.natives_eq⟩

end

/-! ## Parts of a record -/

/-- A plan for records of one line. -/
def Plan.single (kind : OutputKind) (line : LinePlan) : Plan := ⟨kind, line, none⟩

/-- The label that a target gives to a candidate, as a target for the candidate alone. -/
def LabelTarget.candidate (target : LabelTarget) (index : Nat) : LabelTarget :=
  match ActionPlan.labelAt target index with
  | .some label => .whole label
  | .none => .none

/-- The lines of a record with candidates as records of one line: the one that the candidates share, under its fixed
label, and the candidates in order. -/
def Plan.parts (p : Plan) (actions : ActionPlan) (root : Record) (target : LabelTarget) : List Emission :=
  ⟨.single p.kind p.line, root, .whole (.raw ParsedLabel.sharedText)⟩ ::
    (actions.candidates root).zipIdx.map fun (candidate, index) =>
      ⟨.single p.kind actions.candidate, candidate, target.candidate index⟩

/-- What the serialization of a record gives. -/
def Emission.alone (engine : Engine) (options : Options) (default : FloatFormat) (e : Emission) :
    Except LabelError Output := (e.plan.serialize engine options default e.root e.target).result

/-- The row of a record of one line. -/
def Emission.row (e : Emission) : Row := e.plan.line.row e.root e.target.whole?

/-- Texts that are kept are right: there are none, or the marshallers are built in and every site stands for one text. A
site is where a value is stored with the type it is read at, so this is so when the values of the record stay where they
are while it is written. -/
inductive Plan.KeepsSafely (p : Plan) (engine : Engine) (options : Options) (root : Record) (target : LabelTarget) : Prop
  | forgets (off : options.dictify = false) (members : ∀ b ∈ p.blocks, ∀ s ∈ b.steps, s.descriptor.dictify = false)
    (custom : ∀ b ∈ p.blocks, ∀ s ∈ b.steps, s.isCustom = true →
      s.Forgets engine (decide (p.kind = .nativeAndText)) b.runtime)
  | tells (builtIn : ∀ b ∈ p.blocks, ∀ s ∈ b.steps, s.isCustom = false) (texts : Site → String)
    (tells : ∀ row ∈ p.rows root target, row.Tells texts)

lemma LabelTarget.whole?_candidate (target : LabelTarget) (index : Nat) :
    (target.candidate index).whole? = ActionPlan.labelAt target index := by
  unfold candidate
  cases ActionPlan.labelAt target index <;> rfl

lemma ActionPlan.rowsFrom_eq_zipIdx (a : ActionPlan) (target : LabelTarget) (index : Nat) (candidates : List Record) :
    a.rowsFrom target index candidates =
      (candidates.zipIdx index).map fun (candidate, index) => a.candidate.row candidate (labelAt target index) := by
  induction candidates generalizing index with
  | nil => rfl
  | cons candidate rest ih =>
    rw [rowsFrom, ih, List.zipIdx_cons, List.map_cons]

namespace Plan

variable {c : Catalogue} {r : Registry} {kind : OutputKind} {id : Nat} {p : Plan} {actions : ActionPlan} {engine : Engine}
  {options : Options} {default : FloatFormat} {root : Record} {target : LabelTarget}

/-- The row that the candidates share. -/
def sharedRow (p : Plan) (root : Record) : Row := ⟨p.line, root, some ParsedLabel.sharedText⟩

lemma rows_eq_zipIdx (several : p.actions = some actions) (root : Record) (target : LabelTarget) :
    p.rows root target = p.sharedRow root :: (actions.candidates root).zipIdx.map fun (candidate, index) =>
      actions.candidate.row candidate (ActionPlan.labelAt target index) := by
  rw [rows, several]
  exact congrArg _ (actions.rowsFrom_eq_zipIdx target 0 _)

lemma rows_eq_parts (several : p.actions = some actions) (root : Record) (target : LabelTarget) :
    p.rows root target = (p.parts actions root target).map Emission.row := by
  rw [rows_eq_zipIdx several, parts, List.map_cons, List.map_map]
  refine congrArg _ (List.map_congr_left fun item _ => ?_)
  simp only [Function.comp, Emission.row, single, LabelTarget.whole?_candidate]

/-- The context in which a record of one line is written. -/
def lineStart (kind : OutputKind) (engine : Engine) (options : Options) (default : FloatFormat) : Context :=
  { Context.new engine options default with text := decide (kind = .nativeAndText) }

lemma isFresh_lineStart (kind : OutputKind) (engine : Engine) (options : Options) (default : FloatFormat) :
    (lineStart kind engine options default).IsFresh := ⟨rfl, rfl, rfl, rfl, rfl, rfl⟩

/-- If the target fits, the rows of a record are written. -/
lemma serialize_of_fit (fits : p.misfit? root target = none) :
    (p.serialize engine options default root target).result =
      (emitRows (p.start engine options default) (p.rows root target)).output := by
  rw [serialize_result, fits, Option.none_or]
  rfl

/-- A record of one line is serialized as its row. -/
lemma alone_single (line : LinePlan) (fits : (single kind line).misfit? root target = none) :
    Emission.alone engine options default ⟨single kind line, root, target⟩ =
      (line.row root target.whole?).alone (lineStart kind engine options default) := by
  have start : (single kind line).start engine options default = lineStart kind engine options default := rfl
  have rows : (single kind line).rows root target = [line.row root target.whole?] := rfl
  unfold Emission.alone
  rw [serialize_of_fit fits, start, rows, emitRows_singleton]
  rfl

lemma alone_candidate (line : LinePlan) (candidate : Record) (target : LabelTarget) (index : Nat) :
    Emission.alone engine options default ⟨single kind line, candidate, target.candidate index⟩ =
      (line.row candidate (ActionPlan.labelAt target index)).alone (lineStart kind engine options default) := by
  have fits : (single kind line).misfit? candidate (target.candidate index) = none := by
    unfold LabelTarget.candidate
    cases ActionPlan.labelAt target index <;> rfl
  rw [alone_single line fits, LabelTarget.whole?_candidate]

/-- The parts of a record are serialized as their rows. -/
lemma alone_part {e : Emission} (mem : e ∈ p.parts actions root target) :
    e.alone engine options default = e.row.alone (lineStart p.kind engine options default) := by
  rcases List.mem_cons.1 mem with rfl | mem
  · exact alone_single p.line rfl
  · obtain ⟨⟨candidate, index⟩, -, rfl⟩ := List.mem_map.1 mem
    simp only [Emission.row, LabelTarget.whole?_candidate]
    exact alone_candidate actions.candidate candidate target index

/-- The rows of a record can be written one by one. -/
lemma KeepsSafely.rows (compiled : Plan.compile c r kind id = .ok p) (safe : p.KeepsSafely engine options root target)
    (default : FloatFormat) :
    ∃ kept : List (Site × String) → Prop, kept [] ∧ ∀ row ∈ p.rows root target,
      row.Independent (lineStart p.kind engine options default) kept ∧
        row.Written (lineStart p.kind engine options default) := by
  have isFresh := isFresh_lineStart p.kind engine options default
  cases safe with
  | forgets off members custom =>
    have forgets := forgets_of_custom compiled members custom
    refine ⟨(· = []), rfl, fun row mem => ?_⟩
    have own : ∀ b ∈ row.plan.blocks, ∀ s ∈ b.steps, s.Forgets engine (decide (p.kind = .nativeAndText)) b.runtime :=
      fun b block => forgets b (mem_blocks_of_mem_rows mem block)
    exact ⟨Row.independent_of_forgets isFresh off own, Row.written_of_forgets isFresh off own⟩
  | tells builtIn texts tells =>
    refine ⟨fun memo => ∀ site text, memo.lookup site = some text → text = texts site,
      (fun _ _ found => by cases found), fun row mem => ?_⟩
    have own : row.BuiltIn :=
      ⟨⟨r, fun b block => realizes_of_mem_blocks compiled (mem_blocks_of_mem_rows mem block)⟩,
        fun b block => builtIn b (mem_blocks_of_mem_rows mem block)⟩
    exact ⟨Row.independent_of_tells isFresh own (tells row mem), Row.written_of_tells isFresh own (tells row mem)⟩

/-- A record with candidates is put together from its parts. -/
lemma serialize_eq_join (compiled : Plan.compile c r kind id = .ok p) (several : p.actions = some actions)
    (fits : p.misfit? root target = none) (safe : p.KeepsSafely engine options root target) (default : FloatFormat) :
    (p.serialize engine options default root target).result =
      ((p.parts actions root target).mapM (Emission.alone engine options default)).map fun outputs =>
        { Output.join outputs with multiLine := true } := by
  have isFresh := isFresh_lineStart p.kind engine options default
  obtain ⟨kept, nothing, rows⟩ := safe.rows compiled default
  have some : p.rows root target ≠ [] := by
    obtain ⟨row, rest, eq, -⟩ := p.rows_eq_cons root target
    rw [eq]
    exact List.cons_ne_nil _ _
  have paused : (p.start engine options default).Paused (lineStart p.kind engine options default) :=
    ⟨rfl, rfl, rfl, rfl, rfl, rfl⟩
  have marked : (p.start engine options default).multiLine = true := by
    rw [start, isMultiLine, several]
    rfl
  have written := finish_emitRows isFresh some (fun row mem => (rows row mem).1) paused nothing rfl rfl
  rw [serialize_of_fit fits, written, marked, rows_eq_parts several, List.mapM_map]
  refine congrArg (Except.map _) (Except.mapM_congr fun e mem => ?_)
  exact (alone_part mem).symm

/-- The output has a line for every row, the one that the row gives alone. -/
lemma lines_of_serialize {kept : List (Site × String) → Prop} (nothing : kept [])
    (rows : ∀ row ∈ p.rows root target, row.Independent (lineStart p.kind engine options default) kept ∧
      row.Written (lineStart p.kind engine options default)) {o : Output}
    (ok : (p.serialize engine options default root target).result = .ok o) :
    (∀ row ∈ p.rows root target, (row.emit (lineStart p.kind engine options default)).failure = none) ∧
      List.Forall₂ (fun row line => (row.emit (lineStart p.kind engine options default)).context.natives = [line])
        (p.rows root target) o.lines ∧ o.multiLine = p.isMultiLine := by
  have paused : (p.start engine options default).Paused (lineStart p.kind engine options default) :=
    ⟨rfl, rfl, rfl, rfl, rfl, rfl⟩
  obtain ⟨written, rfl⟩ := serialize_eq_ok ok
  obtain ⟨failed, after⟩ := emitRows_independent (fun row mem => (rows row mem).1) paused nothing
  obtain ⟨rested, -, natives, -⟩ := after written
  have each := List.findSome?_eq_none_iff.1 (failed.symm.trans written)
  have made := List.forall₂_flatMap fun row mem => ((rows row mem).2.line (each row mem)).imp fun _ => And.left
  rw [rested.finish]
  exact ⟨each, natives ▸ made, (emitRows_reports _ _).multiLine⟩

/-- Without its fixed label, the shared line is that of the record's own namespaces. -/
lemma alone_of_shared (written : (p.sharedRow root).Written (lineStart p.kind engine options default))
    (reads : engine.readLabel = ParsedLabel.read) {line : Example}
    (made : ((p.sharedRow root).emit (lineStart p.kind engine options default)).context.natives = [line])
    (ok : ((p.sharedRow root).emit (lineStart p.kind engine options default)).failure = none) :
    ∃ own text, Emission.alone engine options default ⟨single p.kind { p.line with label := none }, root, .none⟩ =
      .ok ⟨[own], text, false⟩ ∧ line = { own with label := some .shared } := by
  obtain ⟨namespaces, spec⟩ := written
  obtain ⟨label, shared, same⟩ := spec (some ParsedLabel.sharedText) ok
  obtain ⟨none', unlabelled, bare⟩ := spec none rfl
  obtain ⟨parsed, accepted, rfl⟩ := Except.map_eq_ok.1 shared
  have fixed : engine.readLabel ParsedLabel.sharedText.toList = .ok .shared := by
    rw [reads]
    rfl
  cases fixed.symm.trans accepted
  cases made.symm.trans same
  obtain ⟨text, gives⟩ := Row.alone_eq_ok (isFresh_lineStart p.kind engine options default) rfl bare
  exact ⟨_, text, (alone_single { p.line with label := none } rfl).trans gives, rfl⟩

/-- A record is serialized when the labels of its rows are accepted. -/
lemma serialize_ok_iff (fits : p.misfit? root target = none) :
    (∃ o, (p.serialize engine options default root target).result = .ok o) ↔
      ∀ row ∈ p.rows root target, row.refusal? engine = none := by
  have idle := p.idle_start engine options default
  rw [serialize_of_fit fits, Attempt.output, emitRows_failure idle, ← List.findSome?_eq_none_iff]
  cases (p.rows root target).findSome? (Row.refusal? engine) with
  | some failure => simp
  | none => simp

/-- Behind the shared row there are those of the candidates, in order. -/
lemma getElem?_rows (several : p.actions = some actions) {index : Nat} {candidate : Record}
    (found : (actions.candidates root)[index]? = some candidate) :
    (p.rows root target)[index + 1]? =
      some (actions.candidate.row candidate (ActionPlan.labelAt target index)) := by
  rw [rows_eq_zipIdx several, List.getElem?_cons_succ, List.getElem?_map, List.getElem?_zipIdx, found]
  simp only [Option.map_some, Nat.zero_add]

/-- What holds of every row holds of the shared one and of those of the candidates. -/
lemma forall_mem_rows (several : p.actions = some actions) {P : Row → Prop} :
    (∀ row ∈ p.rows root target, P row) ↔ P (p.sharedRow root) ∧
      ∀ index candidate, (actions.candidates root)[index]? = some candidate →
        P (actions.candidate.row candidate (ActionPlan.labelAt target index)) := by
  rw [rows_eq_zipIdx several, List.forall_mem_cons, List.forall_mem_map, Prod.forall]
  simp only [List.mem_zipIdx_iff_getElem?]
  exact and_congr_right' forall_comm

end Plan

section

variable {engine : Engine} {line : LinePlan} {root : Record} {given : Option Label}

/-- A row is accepted when the label that is chosen for it is: the given one, else the own one. -/
lemma LinePlan.refusal?_row (reads : engine.readLabel = ParsedLabel.read) :
    (line.row root given).refusal? engine = none ↔
      ∀ label, (given <|> line.ownLabel? root) = some label →
        ∃ parsed, ParsedLabel.read label.text.toList = .ok parsed := by
  unfold Row.refusal? row
  rw [reads]
  cases given <|> line.ownLabel? root with
  | none => simp
  | some label =>
    cases accepted : ParsedLabel.read label.text.toList <;> simp [accepted]

/-- The label of a row is what is read from the chosen one. -/
lemma LinePlan.label_row (reads : engine.readLabel = ParsedLabel.read) {label : Option ParsedLabel}
    (ok : (line.row root given).label engine = .ok label) :
    label = (given <|> line.ownLabel? root).bind fun label => (ParsedLabel.read label.text.toList).toOption := by
  unfold Row.label row at ok
  rw [reads] at ok
  cases found : given <|> line.ownLabel? root with
  | none =>
    rw [found] at ok
    cases ok
    rfl
  | some chosen =>
    rw [found] at ok
    obtain ⟨parsed, accepted, rfl⟩ := Except.map_eq_ok.1 ok
    rw [Option.bind_some, accepted]
    rfl

end

namespace Plan

/-- The plan of the candidates is the line of the one that their type compiles to. -/
lemma compile_single {c : Catalogue} {r : Registry} {kind : OutputKind} {id : Nat} {p : Plan} {actions : ActionPlan}
    (compiled : Plan.compile c r kind id = .ok p) (several : p.actions = some actions) :
    ∃ member candidate, c.actions id = [(member, candidate)] ∧
      Plan.compile c r kind candidate = .ok (.single kind actions.candidate) := by
  obtain ⟨-, -, inner⟩ := compile_spec compiled
  rcases inner with ⟨-, none⟩ | ⟨member, candidate, actions', one, leaf, some, -, line, -⟩
  · rw [none] at several
    cases several
  · rw [some] at several
    cases several
    have none : actionMember c candidate = .ok none := by rw [actionMember, leaf]
    exact ⟨member, candidate, one, Except.bind_eq_ok.2 ⟨_, line, Except.bind_eq_ok.2 ⟨_, none, rfl⟩⟩⟩

/-- A record with candidates is serialized when the labels chosen for the candidates can be read. -/
lemma serialize_ok_iff_labels {p : Plan} {actions : ActionPlan} (several : p.actions = some actions) {engine : Engine}
    (reads : engine.readLabel = ParsedLabel.read) {options : Options} {default : FloatFormat} {root : Record}
    {target : LabelTarget} (fits : p.misfit? root target = none) :
    (∃ o, (p.serialize engine options default root target).result = .ok o) ↔
      ∀ index candidate label, (actions.candidates root)[index]? = some candidate →
        (ActionPlan.labelAt target index <|> actions.candidate.ownLabel? candidate) = some label →
          ∃ parsed, ParsedLabel.read label.text.toList = .ok parsed := by
  have shared : (p.sharedRow root).refusal? engine = none := by
    rw [Row.refusal?, sharedRow, Option.bind_some, reads]
    rfl
  rw [serialize_ok_iff fits, forall_mem_rows several]
  simp only [shared, true_and, LinePlan.refusal?_row reads]
  exact forall₂_congr fun index candidate => ⟨fun all label found => all found label, fun all found label => all label found⟩

/-- Records with candidates are put together from their parts, as long as texts that are kept are right. There is a line
for the record itself and one for each candidate, in order. The first is the line of the record's own namespaces, marked
as shared. The line of a candidate is the one that the plan of the candidates gives for it alone, under the label given for
it with the call, else under its own if it has one. Nothing but the labels chosen in this way can fail. -/
theorem serialize_candidates {c : Catalogue} {r : Registry} {kind : OutputKind} {id : Nat} {p : Plan}
    {actions : ActionPlan} (compiled : Plan.compile c r kind id = .ok p) (several : p.actions = some actions)
    {engine : Engine} (reads : engine.readLabel = ParsedLabel.read) {options : Options} {root : Record}
    {target : LabelTarget} (fits : p.misfit? root target = none) (safe : p.KeepsSafely engine options root target)
    (default : FloatFormat) :
    let result := (p.serialize engine options default root target).result
    let alone := Emission.alone engine options default
    let candidates := actions.candidates root
    let chosen (index : Nat) (candidate : Record) : Option Label :=
      ActionPlan.labelAt target index <|> actions.candidate.ownLabel? candidate
    (∃ member candidate, c.actions id = [(member, candidate)] ∧
      Plan.compile c r kind candidate = .ok (.single kind actions.candidate)) ∧
    result = ((p.parts actions root target).mapM alone).map (fun outputs => { Output.join outputs with multiLine := true }) ∧
    ((∃ o, result = .ok o) ↔ ∀ index candidate label, candidates[index]? = some candidate →
      chosen index candidate = some label → ∃ parsed, ParsedLabel.read label.text.toList = .ok parsed) ∧
    ∀ o, result = .ok o →
      o.multiLine = true ∧ o.lines.length = 1 + candidates.length ∧
      (∃ own text, alone ⟨.single kind { p.line with label := none }, root, .none⟩ = .ok ⟨[own], text, false⟩ ∧
        o.lines.head? = some { own with label := some .shared }) ∧
      ∀ index candidate, candidates[index]? = some candidate → ∃ line text,
        o.lines[index + 1]? = some line ∧
        alone ⟨.single kind actions.candidate, candidate, target.candidate index⟩ = .ok ⟨[line], text, false⟩ ∧
        line.label = (chosen index candidate).bind fun label => (ParsedLabel.read label.text.toList).toOption := by
  intro result alone candidates chosen
  obtain ⟨rfl, -, -⟩ := compile_spec compiled
  have isFresh := isFresh_lineStart p.kind engine options default
  obtain ⟨kept, nothing, rows⟩ := safe.rows compiled default
  refine ⟨compile_single compiled several, serialize_eq_join compiled several fits safe default,
    serialize_ok_iff_labels several reads fits, fun o ok => ?_⟩
  obtain ⟨each, made, marked⟩ := lines_of_serialize nothing rows ok
  refine ⟨?_, ?_, ?_, fun index candidate found => ?_⟩
  · rw [marked, isMultiLine, several]
    rfl
  · rw [← made.length_eq, rows_eq_zipIdx several, List.length_cons, List.length_map, List.length_zipIdx, Nat.add_comm]
  · have row : (p.rows root target)[0]? = some (p.sharedRow root) := by rw [rows_eq_zipIdx several, List.getElem?_cons_zero]
    obtain ⟨line, there, eq⟩ := made.getElem? row
    have mem := List.mem_of_getElem? row
    obtain ⟨own, text, gives, rfl⟩ := alone_of_shared (rows _ mem).2 reads eq (each _ mem)
    exact ⟨own, text, gives, List.head?_eq_getElem?.trans there⟩
  · have row : (p.rows root target)[index + 1]? = some _ := getElem?_rows several found
    obtain ⟨line, there, eq⟩ := made.getElem? row
    have mem := List.mem_of_getElem? row
    obtain ⟨line', same, label⟩ := (rows _ mem).2.line (each _ mem)
    cases eq.symm.trans same
    obtain ⟨text, gives⟩ := Row.alone_eq_ok isFresh (each _ mem) eq
    exact ⟨line, text, there, (alone_candidate actions.candidate candidate target index).trans gives,
      LinePlan.label_row reads label⟩

/-- A batch with a label for its second slip, whose own label could not be read, and with a third slip that has neither
label nor features. -/
theorem serialize_candidates_batch :
    let batch := Batch.record [Batch.slip (some "4") 2 5, Batch.slip (some "bad") 4 6, Batch.slip none 6 0]
    let plan := Batch.plan .nativeAndText
    let target := LabelTarget.action 1 (.raw "1")
    plan.KeepsSafely (.reference 0) {} batch target ∧
      ∃ o, (plan.serialize (.reference 0) {} .compact batch target).result = .ok o ∧
        o.text = some "shared |b size:7\n4 |n x:5\n1 |n x:6\n" ∧ o.multiLine = true ∧ o.lines.length = 1 + 3 := by
  intro batch plan target
  have builtIn : ∀ b ∈ plan.blocks, ∀ s ∈ b.steps, s.isCustom = false := by decide +kernel
  have safe : plan.KeepsSafely (.reference 0) {} batch target :=
    .forgets rfl (by decide +kernel) fun b block s step custom => by
      rw [builtIn b block s step] at custom
      cases custom
  obtain ⟨-, -, -, lines⟩ := serialize_candidates (Batch.compile_eq .nativeAndText) rfl rfl rfl safe .compact
  have shown : (plan.serialize (.reference 0) {} .compact batch target).result.toOption.bind Output.text =
      some "shared |b size:7\n4 |n x:5\n1 |n x:6\n" := by decide +kernel
  cases ok : (plan.serialize (.reference 0) {} .compact batch target).result with
  | error failure =>
    rw [ok] at shown
    cases shown
  | ok o =>
    rw [ok] at shown
    obtain ⟨multiLine, count, -⟩ := lines o ok
    exact ⟨safe, o, rfl, shown, multiLine, count⟩

end Plan

end FeatureLines
