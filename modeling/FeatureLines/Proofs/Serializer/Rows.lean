import Mathlib.Data.List.Basic
import Mathlib.Data.List.Forall2
import FeatureLines.Proofs.Serializer.Plan
import FeatureLines.Serializer.Serialization

/-!
# Serialization row by row

What is written for a record is a list of rows: a plan with a record and the text before the namespaces, if any. A record
without candidates is one row, and a record with candidates is the row that they share and a row for each of them. Writing
a record is writing its rows up to the first one that fails (`Plan.emit_eq_emitRows`), so what holds of one row carries
over to a serialization by induction on the rows.

Runs are compared in lockstep: a relation between contexts that is kept around the values (`Context.Lockstep`) is kept by
rows if their steps keep it (`Context.Lockstep.emitRows`).
-/

namespace FeatureLines

/-- A line to be written: along which plan, for which record, and with which text at its head. -/
structure Row where
  plan : LinePlan
  root : Record
  head : Option String

def Row.emit (row : Row) (c : Context) : Attempt :=
  match row.head with
  | none => ⟨(row.plan.emitBlocks row.root c.startLine).endLine, none⟩
  | some text =>
    match c.startLine.writeLabel text with
    | .ok c => ⟨(row.plan.emitBlocks row.root c).endLine, none⟩
    | .error failure => ⟨c.startLine, some failure⟩

/-- Writes rows up to the first one that fails. -/
def emitRows (c : Context) : List Row → Attempt
  | [] => ⟨c, none⟩
  | row :: rest =>
    match (row.emit c).failure with
    | some _ => row.emit c
    | none => emitRows (row.emit c).context rest

/-- The row of a record: its head is the label given with the call, else the one that the record holds. -/
def LinePlan.row (p : LinePlan) (root : Record) (given : Option Label) : Row :=
  ⟨p, root, (given <|> p.ownLabel? root).map Label.text⟩

/-- The rows of candidates, from an index on. -/
def ActionPlan.rowsFrom (a : ActionPlan) (target : LabelTarget) (index : Nat) : List Record → List Row
  | [] => []
  | candidate :: rest => a.candidate.row candidate (labelAt target index) :: a.rowsFrom target (index + 1) rest

/-- The label that a target gives to the whole of a record. -/
def LabelTarget.whole? (target : LabelTarget) : Option Label :=
  match target with
  | .whole label => some label
  | _ => Option.none

namespace Plan

def rows (p : Plan) (root : Record) (target : LabelTarget) : List Row :=
  match p.actions with
  | none => [p.line.row root target.whole?]
  | some actions =>
    ⟨p.line, root, some ParsedLabel.sharedText⟩ :: actions.rowsFrom target 0 (actions.candidates root)

def heads (p : Plan) (root : Record) (target : LabelTarget) : List String := (p.rows root target).filterMap Row.head

end Plan

/-! ## Writing rows -/

/-- Where no line is started, there is none to finish. -/
lemma Context.endLine_of_idle (c : Context) (current : c.current = none) (builder : c.builder = none) :
    c.endLine = c := by
  unfold endLine endNamespace
  rw [current]
  simp only [builder]

/-- Rows are written up to the first that fails. -/
lemma emitRows_cons (c : Context) (row : Row) (rest : List Row) :
    emitRows c (row :: rest) =
      match (row.emit c).failure with
      | some _ => row.emit c
      | none => emitRows (row.emit c).context rest := rfl

/-- Rows are written when the first one is and then the others are. -/
lemma emitRows_cons_failure {c : Context} {row : Row} {rest : List Row}
    (ok : (emitRows c (row :: rest)).failure = none) :
    (row.emit c).failure = none ∧ emitRows c (row :: rest) = emitRows (row.emit c).context rest := by
  rw [emitRows_cons] at ok ⊢
  cases failure : (row.emit c).failure with
  | some cause =>
    simp only [failure] at ok
    cases ok
  | none => exact ⟨rfl, rfl⟩

lemma emitRows_singleton (c : Context) (row : Row) : emitRows c [row] = row.emit c := by
  rw [emitRows_cons]
  rcases row.emit c with ⟨context, failure⟩
  cases failure <;> rfl

/-- What every row that is written leads from, and to, holds before and after the rows. -/
theorem emitRows_of_step {P : Context → Prop} {rows : List Row}
    (step : ∀ row ∈ rows, ∀ c, P c → (row.emit c).failure = none → P (row.emit c).context) {c : Context} (start : P c)
    (ok : (emitRows c rows).failure = none) : P (emitRows c rows).context := by
  induction rows generalizing c with
  | nil => exact start
  | cons row rest ih =>
    obtain ⟨written, eq⟩ := emitRows_cons_failure ok
    rw [eq] at ok ⊢
    exact ih (fun row mem => step row (List.mem_cons_of_mem _ mem)) (step row List.mem_cons_self c start written) ok

/-- A line of a plan is written as its row. -/
lemma LinePlan.emitLine_eq_emit (p : LinePlan) (root : Record) (given : Option Label) (c : Context) :
    p.emitLine root given c = (p.row root given).emit c := by
  unfold emitLine row Row.emit
  cases given <|> p.ownLabel? root <;> rfl

/-- Candidates are written as their rows, one after the other. -/
lemma ActionPlan.emitFrom_eq_emitRows (a : ActionPlan) (target : LabelTarget) (index : Nat) (c : Context)
    (candidates : List Record) :
    a.emitFrom target index c candidates = emitRows c (a.rowsFrom target index candidates) := by
  induction candidates generalizing index c with
  | nil => rfl
  | cons candidate rest ih =>
    unfold emitFrom rowsFrom
    rw [emitRows_cons, ← LinePlan.emitLine_eq_emit]
    rcases a.candidate.emitLine candidate (labelAt target index) c with ⟨context, failure⟩
    cases failure with
    | some cause => rfl
    | none => exact ih (index + 1) context

/-- A record is written as its rows. -/
theorem Plan.emit_eq_emitRows (p : Plan) (root : Record) (target : LabelTarget) (c : Context) :
    p.emit root target c = emitRows { c with multiLine := c.multiLine || p.isMultiLine } (p.rows root target) := by
  unfold emit rows isMultiLine
  cases p.actions with
  | none =>
    have unmarked : ({ c with multiLine := c.multiLine || false } : Context) = c := by rw [Bool.or_false]
    simp only [Option.isSome_none]
    rw [emitRows_singleton, unmarked, ← LinePlan.emitLine_eq_emit]
    cases target <;> rfl
  | some actions =>
    -- the mark of several lines is set before the first line either way
    simp only [Option.isSome_some, Bool.or_true]
    rw [emitRows_cons]
    unfold Row.emit
    cases written : ({ c with multiLine := true } : Context).startLine.writeLabel ParsedLabel.sharedText with
    | error failure => simp only [written]
    | ok labelled =>
      simp only [written]
      exact actions.emitFrom_eq_emitRows target 0 _ _

/-! ## Rows in lockstep -/

/-- The relation is kept by all that is written around the values of a line, and labels are accepted or refused alike. -/
structure Context.Lockstep (R : Context → Context → Prop) : Prop where
  beginNamespace {c d : Context} (h : R c d) (space : Namespace) : R (c.beginNamespace space) (d.beginNamespace space)
  preallocate {c d : Context} (h : R c d) (room : Nat) : R (c.preallocate room) (d.preallocate room)
  endNamespace {c d : Context} (h : R c d) : R c.endNamespace d.endNamespace
  startLine {c d : Context} (h : R c d) : R c.startLine d.startLine
  writeLabel {c d : Context} (h : R c d) (label : String) :
    (∃ c' d', c.writeLabel label = .ok c' ∧ d.writeLabel label = .ok d' ∧ R c' d') ∨
      ∃ failure, c.writeLabel label = .error failure ∧ d.writeLabel label = .error failure
  endLine {c d : Context} (h : R c d) : R c.endLine d.endLine

/-- Two blocks of a namespace whose steps keep the relation, one by one. -/
structure Block.Lockstep (R : Context → Context → Prop) (root : Record) (b b' : Block) : Prop where
  runtime : b'.runtime = b.runtime
  room : b'.room = b.room
  steps : List.Forall₂ (fun s s' => ∀ c d, R c d → R (s.emit b.runtime root c) (s'.emit b.runtime root d)) b.steps b'.steps

/-- Two rows for a record, with one head, whose blocks keep the relation. -/
structure Row.Lockstep (R : Context → Context → Prop) (row row' : Row) : Prop where
  root : row'.root = row.root
  head : row'.head = row.head
  blocks : List.Forall₂ (Block.Lockstep R row.root) row.plan.blocks row'.plan.blocks

section

variable {R : Context → Context → Prop} {root : Record} {c d : Context}

/-- A block keeps a relation if each of its steps does. -/
lemma Block.Lockstep.same {b : Block}
    (each : ∀ s ∈ b.steps, ∀ c d, R c d → R (s.emit b.runtime root c) (s.emit b.runtime root d)) :
    b.Lockstep R root b := ⟨rfl, rfl, List.forall₂_same.2 each⟩

/-- A row keeps a relation if each of its blocks does. -/
lemma Row.Lockstep.same {row : Row} (each : ∀ b ∈ row.plan.blocks, b.Lockstep R row.root b) : row.Lockstep R row :=
  ⟨rfl, rfl, List.forall₂_same.2 each⟩

namespace Context.Lockstep

variable (keeps : Lockstep R)

include keeps

/-- Blocks in lockstep open and close their namespaces together. -/
lemma block {b b' : Block} (pair : b.Lockstep R root b') (h : R c d) : R (b.emit root c) (b'.emit root d) := by
  have begun := keeps.beginNamespace h b.runtime
  have opened : R (if b.room = 0 then c.beginNamespace b.runtime else (c.beginNamespace b.runtime).preallocate b.room)
      (if b.room = 0 then d.beginNamespace b.runtime else (d.beginNamespace b.runtime).preallocate b.room) := by
    split
    · exact begun
    · exact keeps.preallocate begun b.room
  unfold Block.emit
  rw [pair.runtime, pair.room]
  exact keeps.endNamespace (List.rel_foldl (fun _ _ h _ _ step => step _ _ h) opened pair.steps)

/-- Plans whose blocks are in lockstep stay in it up to the end of the line. -/
lemma blocks {p p' : LinePlan} (pairs : List.Forall₂ (Block.Lockstep R root) p.blocks p'.blocks) (h : R c d) :
    R (p.emitBlocks root c) (p'.emitBlocks root d) := by
  have each : List.Forall₂ (fun b b' => ∀ c d, R c d → R (b.emit root c) (b'.emit root d)) p.blocks p'.blocks :=
    pairs.imp fun _ _ pair _ _ h => keeps.block pair h
  exact List.rel_foldl (fun _ _ h _ _ step => step _ _ h) h each

/-- Once their lines are started, both rows are written, or they are refused for one reason. -/
lemma row {row row' : Row} (pair : row.Lockstep R row') (h : R c.startLine d.startLine) :
    R (row.emit c).context (row'.emit d).context ∧ (row.emit c).failure = (row'.emit d).failure := by
  unfold Row.emit
  rw [pair.root, pair.head]
  cases row.head with
  | none => exact ⟨keeps.endLine (keeps.blocks pair.blocks h), rfl⟩
  | some label =>
    rcases keeps.writeLabel h label with ⟨c', d', left, right, labelled⟩ | ⟨failure, left, right⟩
    · simp only [left, right, and_true]
      exact keeps.endLine (keeps.blocks pair.blocks labelled)
    · simp only [left, right, and_true]
      exact h

/-- Rows are written to both contexts up to the same row. -/
theorem emitRows {rows rows' : List Row} (pairs : List.Forall₂ (Row.Lockstep R) rows rows') (h : R c d) :
    R (emitRows c rows).context (emitRows d rows').context ∧ (emitRows c rows).failure = (emitRows d rows').failure := by
  induction pairs generalizing c d with
  | nil => exact ⟨h, rfl⟩
  | cons first _ ih =>
    obtain ⟨written, same⟩ := keeps.row first (keeps.startLine h)
    rw [emitRows_cons, emitRows_cons, ← same]
    cases failure : (Row.emit _ c).failure with
    | some cause => exact ⟨written, same⟩
    | none => exact ih written

end Context.Lockstep

end

/-! ## The rows of a record -/

/-- All candidates are written by one plan. -/
lemma ActionPlan.plan_of_mem_rowsFrom {a : ActionPlan} {target : LabelTarget} {index : Nat} {candidates : List Record}
    {row : Row} (mem : row ∈ a.rowsFrom target index candidates) : row.plan = a.candidate := by
  induction candidates generalizing index with
  | nil => cases mem
  | cons candidate rest ih =>
    rcases List.mem_cons.1 mem with rfl | mem
    · rfl
    · exact ih mem

namespace Plan

variable {p : Plan} {root : Record} {target : LabelTarget}

/-- A record has a row at least, the one of its own namespaces. -/
lemma rows_eq_cons (p : Plan) (root : Record) (target : LabelTarget) :
    ∃ row rest, p.rows root target = row :: rest ∧ row.plan = p.line ∧ row.root = root := by
  unfold rows
  cases p.actions <;> exact ⟨_, _, rfl, rfl, rfl⟩

/-- What a row is written by is part of the plan. -/
lemma mem_blocks_of_mem_rows {row : Row} (mem : row ∈ p.rows root target) {b : Block} (block : b ∈ row.plan.blocks) :
    b ∈ p.blocks := by
  unfold rows at mem
  unfold blocks
  cases actions : p.actions with
  | none =>
    rw [actions, List.mem_singleton] at mem
    subst mem
    exact List.mem_append_left _ block
  | some a =>
    rw [actions] at mem
    rcases List.mem_cons.1 mem with rfl | mem
    · exact List.mem_append_left _ block
    · rw [ActionPlan.plan_of_mem_rowsFrom mem] at block
      exact List.mem_append_right _ block

/-- The heads of rows are those of the record. -/
lemma mem_heads_of_mem_rows {row : Row} (mem : row ∈ p.rows root target) {text : String} (head : row.head = some text) :
    text ∈ p.heads root target := List.mem_filterMap.2 ⟨row, mem, head⟩

end Plan

/-- The candidates that a field holds. -/
def Record.candidatesAt (root : Record) (position : Nat) : List Record :=
  match root.field? position with
  | some (.candidates _ items) => items
  | _ => []

/-- The records that are written as lines, each with its type: a record and its candidates. -/
def Catalogue.lines (c : Catalogue) (id : Nat) (root : Record) : List (Nat × Record) :=
  (id, root) :: (c.actions id).flatMap fun action => (root.candidatesAt action.1.position).map (action.2, ·)

/-- The rows of candidates are along their plan, in order. -/
lemma ActionPlan.forall₂_rowsFrom (a : ActionPlan) (candidate : Nat) (target : LabelTarget) (index : Nat)
    (candidates : List Record) :
    List.Forall₂ (fun subject row => subject.1 = candidate ∧ row.plan = a.candidate ∧ row.root = subject.2)
      (candidates.map (candidate, ·)) (a.rowsFrom target index candidates) := by
  induction candidates generalizing index with
  | nil => exact .nil
  | cons _ rest ih => exact .cons ⟨rfl, rfl, rfl⟩ (ih (index + 1))

/-- The rows of a record are along the plans of the types of its lines. -/
theorem Plan.forall₂_rows {c : Catalogue} {r : Registry} {kind : OutputKind} {id : Nat} {p : Plan}
    (compiled : Plan.compile c r kind id = .ok p) (root : Record) (target : LabelTarget) :
    List.Forall₂ (fun subject row => LinePlan.compile c r subject.1 = .ok row.plan ∧ row.root = subject.2)
      (c.lines id root) (p.rows root target) := by
  obtain ⟨-, line, candidates⟩ := compile_spec compiled
  unfold Catalogue.lines rows
  rcases candidates with ⟨none, done⟩ | ⟨member, candidate, actions, one, -, done, place, inner, -⟩
  · rw [none, done]
    exact .cons ⟨line, rfl⟩ .nil
  · have same : actions.candidates root = root.candidatesAt member.position := by
      rw [← place]
      rfl
    rw [one, done, List.flatMap_singleton]
    simp only [same]
    refine .cons ⟨line, rfl⟩ ((actions.forall₂_rowsFrom candidate target 0 _).imp ?_)
    rintro ⟨_, record⟩ row ⟨rfl, plan, root⟩
    exact ⟨plan ▸ inner, root⟩

/-! ## Serializations -/

namespace Plan

variable {p : Plan} {engine : Engine} {options : Options} {default : FloatFormat} {root : Record} {target : LabelTarget}

/-- The context in which a serialization writes its rows. -/
def start (p : Plan) (engine : Engine) (options : Options) (default : FloatFormat) : Context :=
  { Context.new engine options default with text := decide (p.kind = .nativeAndText), multiLine := p.isMultiLine }

/-- A plan for both forms writes the text too. -/
lemma text_start (native : p.kind = .nativeAndText) (engine : Engine) (options : Options) (default : FloatFormat) :
    (p.start engine options default).text = true := by
  rw [start, native]
  rfl

/-- A serialization is refused for its target, or its rows are written to an empty context. -/
theorem serialize_result (p : Plan) (engine : Engine) (options : Options) (default : FloatFormat) (root : Record)
    (target : LabelTarget) :
    (p.serialize engine options default root target).result =
      match (p.misfit? root target).or (emitRows (p.start engine options default) (p.rows root target)).failure with
      | some failure => .error failure
      | none => .ok (emitRows (p.start engine options default) (p.rows root target)).context.finish := by
  unfold serialize serializeInto
  cases misfit : p.misfit? root target with
  | some cause => rfl
  | none =>
    simp only [emit_eq_emitRows, Context.new, Bool.false_or, Option.none_or]
    change Outcome.result (match (emitRows (p.start engine options default) (p.rows root target)).failure with
      | some failure => _
      | none => _) = _
    cases (emitRows (p.start engine options default) (p.rows root target)).failure <;> rfl

/-- An output is what the rows of the record lead to. -/
lemma serialize_eq_ok {o : Output} (ok : (p.serialize engine options default root target).result = .ok o) :
    (emitRows (p.start engine options default) (p.rows root target)).failure = none ∧
      (emitRows (p.start engine options default) (p.rows root target)).context.finish = o := by
  rw [serialize_result] at ok
  split at ok
  · cases ok
  · rename_i fits
    exact ⟨(Option.or_eq_none_iff.1 fits).2, Except.ok.inj ok⟩

end Plan

end FeatureLines
