import FeatureLines.Proofs.First
import FeatureLines.Proofs.Serializer.Candidates
import FeatureLines.Proofs.Serializer.Refused
import FeatureLines.Serializer.Basic

/-!
# Failures of serializing

What can go wrong once a record type is compiled: the target does not fit the record (`Catalogue.Misfits`), or the label
that is chosen for a line is refused (`Engine.Refuses`). Both are told by the declarations and the record alone. The
label of a line is the one that is given for it with the call, else its own one: that of the record, or the fixed text of
the line that candidates share (`Catalogue.chosenLabels`).

Main statement: `Serializer.serialize_fails_iff`.
-/

namespace FeatureLines

/-- The label in a field. -/
def Record.labelAt? (root : Record) (position : Nat) : Option Label :=
  match root.field? position with
  | some (.leaf _ (.label label)) => some label
  | _ => none

/-- Why the text for the head of a line is refused, if it is. -/
def Engine.refusal? (engine : Engine) (head : Option String) : Option LabelError :=
  head.bind fun text =>
    match engine.readLabel text.toList with
    | .ok _ => none
    | .error failure => some failure

/-- The label for a line is refused. -/
def Engine.Refuses (engine : Engine) (chosen : Option Label) (cause : LabelError) : Prop :=
  ∃ label, chosen = some label ∧ engine.readLabel label.text.toList = .error cause

namespace Catalogue

/-- The label that a record of a type holds. -/
def ownLabel? (c : Catalogue) (id : Nat) (root : Record) : Option Label :=
  (c.labels id).head?.bind fun placed => root.labelAt? placed.position

/-- A target does not fit a record: it is for a candidate of a record without candidates, for the whole of a record with
candidates, or for a candidate past the last one. -/
inductive Misfits (c : Catalogue) (id : Nat) (root : Record) : LabelTarget → LabelError → Prop
  | noActions {index : Nat} {label : Label} (single : c.actions id = []) :
      Misfits c id root (.action index label) (.noActions (c.name id))
  | hasActions {label : Label} (several : c.actions id ≠ []) : Misfits c id root (.whole label) (.hasActions (c.name id))
  | noSuchAction {member : Placed} {candidate index : Nat} {label : Label} (several : (member, candidate) ∈ c.actions id)
      (far : (root.candidatesAt member.position).length ≤ index) :
      Misfits c id root (.action index label)
        (.noSuchAction index (root.candidatesAt member.position).length (c.name id))

/-- The labels of the lines of a record, in order: the one given for the line, else the own one of the line, if there is
any. The line that candidates share has a text of its own for its label, and no other is ever given for it. -/
def chosenLabels (c : Catalogue) (id : Nat) (root : Record) (target : LabelTarget) : List (Option Label) :=
  match c.actions id with
  | [] => [target.whole? <|> c.ownLabel? id root]
  | actions =>
    some (.raw ParsedLabel.sharedText) :: actions.flatMap fun (member, candidate) =>
      (root.candidatesAt member.position).zipIdx.map fun (record, index) =>
        ActionPlan.labelAt target index <|> c.ownLabel? candidate record

end Catalogue

/-! ## Labels of lines -/

section

variable {c : Catalogue} {r : Registry} {kind : OutputKind} {id : Nat} {p : Plan} {engine : Engine} {options : Options}
  {default : FloatFormat} {root : Record} {target : LabelTarget} {cause : LabelError}

lemma LinePlan.ownLabel?_eq {line : LinePlan} (compiled : LinePlan.compile c r id = .ok line) (root : Record) :
    line.ownLabel? root = c.ownLabel? id root := by
  obtain ⟨leaves, realizes⟩ := compile_realizes compiled
  unfold ownLabel? Catalogue.ownLabel? Record.labelAt?
  rw [realizes.label.1]
  cases (c.labels id).head? <;> rfl

namespace Plan

/-- The heads of the rows of a record are the texts of the labels that are chosen. -/
lemma heads_rows (compiled : Plan.compile c r kind id = .ok p) (root : Record) (target : LabelTarget) :
    (p.rows root target).map Row.head = (c.chosenLabels id root target).map (Option.map Label.text) := by
  obtain ⟨-, line, candidates⟩ := compile_spec compiled
  rcases candidates with ⟨none, done⟩ | ⟨member, candidate, actions, one, -, done, place, inner, -⟩
  · rw [rows, done, Catalogue.chosenLabels, none]
    simp only [List.map_singleton, LinePlan.row, LinePlan.ownLabel?_eq line]
  · have same : actions.candidates root = root.candidatesAt member.position := by
      rw [← place]
      rfl
    rw [rows_eq_zipIdx done, Catalogue.chosenLabels, one]
    simp only [same, List.map_cons, List.map_map, List.flatMap_singleton]
    refine congrArg _ (List.map_congr_left ?_)
    rintro ⟨record, index⟩ -
    simp only [Function.comp, LinePlan.row, LinePlan.ownLabel?_eq inner]

/-- A target misfits a record along a plan as it does for the declarations. -/
lemma misfit?_eq_some (compiled : Plan.compile c r kind id = .ok p) :
    p.misfit? root target = some cause ↔ c.Misfits id root target cause := by
  obtain ⟨-, line, candidates⟩ := compile_spec compiled
  obtain ⟨leaves, realizes⟩ := LinePlan.compile_realizes line
  unfold misfit?
  rw [realizes.typeName]
  rcases candidates with ⟨none, done⟩ | ⟨_, candidate, actions, one, -, done, rfl, -, -⟩
  · rw [done]
    constructor
    · intro misfit
      cases target with
      | none => cases misfit
      | whole label => cases misfit
      | action index label =>
        cases misfit
        exact .noActions none
    · intro misfits
      cases misfits with
      | noActions => rfl
      | hasActions several => exact absurd none several
      | noSuchAction several =>
        rw [none] at several
        cases several
  · rw [done]
    constructor
    · intro misfit
      cases target with
      | none => cases misfit
      | whole label =>
        cases misfit
        exact .hasActions (by simp [one])
      | action index label =>
        simp only at misfit
        split at misfit
        · rename_i far
          cases misfit
          exact .noSuchAction (one ▸ List.mem_singleton_self (actions.member, candidate)) far
        · cases misfit
    · intro misfits
      cases misfits with
      | noActions single =>
        rw [one] at single
        cases single
      | hasActions => rfl
      | noSuchAction several far =>
        rw [one, List.mem_singleton] at several
        cases several
        exact if_pos far

/-- The first row that is refused is that of the first label that is. -/
lemma refusal?_rows (compiled : Plan.compile c r kind id = .ok p) :
    (p.rows root target).findSome? (Row.refusal? engine) = some cause ↔
      First ((c.chosenLabels id root target).map engine.Refuses) cause := by
  have found (chosen : Option Label) (cause : LabelError) :
      engine.refusal? (chosen.map Label.text) = some cause ↔ engine.Refuses chosen cause := by
    unfold Engine.refusal? Engine.Refuses
    cases chosen with
    | none => simp
    | some label => cases accepted : engine.readLabel label.text.toList <;> simp [accepted]
  have heads : (p.rows root target).findSome? (Row.refusal? engine) =
      ((p.rows root target).map Row.head).findSome? engine.refusal? := by
    rw [List.findSome?_map]
    rfl
  rw [First.map_iff found, heads, heads_rows compiled, List.findSome?_map]
  rfl

/-- A serialization fails for its target, or for the first label that is refused. -/
theorem serialize_eq_error_iff (compiled : Plan.compile c r kind id = .ok p) :
    (p.serialize engine options default root target).result = .error cause ↔
      First (c.Misfits id root target :: (c.chosenLabels id root target).map engine.Refuses) cause := by
  have idle := p.idle_start engine options default
  rw [serialize_result, First.cons_iff, ← refusal?_rows compiled, emitRows_failure idle]
  simp only [← misfit?_eq_some compiled]
  cases misfit : p.misfit? root target with
  | some failure => simp
  | none =>
    cases (p.rows root target).findSome? (Row.refusal? engine) <;> simp

end Plan

/-- The text of the line that candidates share is accepted. -/
lemma Engine.not_refuses_shared (reads : engine.readLabel = ParsedLabel.read) :
    ¬engine.Refuses (some (.raw ParsedLabel.sharedText)) cause := by
  rintro ⟨label, same, refused⟩
  cases same
  rw [reads] at refused
  have accepted : ParsedLabel.read (Label.raw ParsedLabel.sharedText).text.toList = .ok .shared := rfl
  rw [accepted] at refused
  cases refused

/-- A target that does not fit is found before anything is written. -/
lemma Plan.serializeInto_of_misfits (compiled : Plan.compile c r kind id = .ok p) (misfits : c.Misfits id root target cause)
    (context : Context) : p.serializeInto root target context = ⟨context, some cause⟩ := by
  unfold serializeInto
  rw [(misfit?_eq_some compiled).2 misfits]

namespace Catalogue

lemma exists_misfits_iff : (∃ cause, c.Misfits id root target cause) ↔
    (∃ index label, target = .action index label ∧ c.actions id = []) ∨
      (∃ label, target = .whole label ∧ c.actions id ≠ []) ∨
      ∃ index label member candidate, target = .action index label ∧ (member, candidate) ∈ c.actions id ∧
        (root.candidatesAt member.position).length ≤ index := by
  constructor
  · rintro ⟨cause, misfits⟩
    cases misfits with
    | noActions single => exact .inl ⟨_, _, rfl, single⟩
    | hasActions several => exact .inr (.inl ⟨_, rfl, several⟩)
    | noSuchAction several far => exact .inr (.inr ⟨_, _, _, _, rfl, several, far⟩)
  · rintro (⟨index, label, rfl, single⟩ | ⟨label, rfl, several⟩ | ⟨index, label, member, candidate, rfl, several, far⟩)
    · exact ⟨_, .noActions single⟩
    · exact ⟨_, .hasActions several⟩
    · exact ⟨_, .noSuchAction several far⟩

end Catalogue

end

/-! ## Serializers -/

/-- A result that a cache computes fails for the computation. -/
lemma Cache.getOrCompute_eq_error {α η ρ ε : Type} [DecidableEq η] {cmp : Comparer α η} {x : α} {result : Except ε ρ}
    {cache : Cache α η ρ} {e : ε} (failed : (cache.getOrCompute cmp x fun cache => (cache, result)).2 = .error e) :
    result = .error e := by
  unfold getOrCompute at failed
  split at failed
  · cases failed
  · simp only at failed
    split at failed
    · rename_i computed
      cases failed
      exact (Prod.ext_iff.1 computed).2
    · split at failed <;> cases failed

namespace Serializer

variable {α η : Type} [DecidableEq η] {s : Serializer α η} {c : Catalogue} {r : Registry} {kind : OutputKind} {id : Nat}

/-- With a cache or without, a serializer fails for a subject as it does past the cache. -/
lemma serializeLabeled_of_serialize {default : FloatFormat} {x : α} {e : Error}
    (failed : (s.serialize default x).result = .error e) : (s.serializeLabeled default x .none).result = .error e := by
  unfold serialize at failed
  cases memory : s.memory with
  | none =>
    rw [memory] at failed
    exact failed
  | some m =>
    rw [memory] at failed
    exact Cache.getOrCompute_eq_error failed

/-- A serializer whose record type was compiled fails for a label and for nothing else: for a target that does not fit the
record, which is found before anything is written, or for the first line whose label is refused. -/
theorem serialize_fails_iff (compiled : Plan.compile c r kind id = .ok s.plan) (default : FloatFormat) (x : α)
    (target : LabelTarget) :
    let result := (s.serializeLabeled default x target).result
    let root := s.recordOf x
    (∀ e, result = .error e ↔ ∃ cause, e = .label cause ∧
        First (c.Misfits id root target :: (c.chosenLabels id root target).map s.engine.Refuses) cause) ∧
      ((∃ e, result = .error e) ↔
        (∃ index label, target = .action index label ∧ c.actions id = []) ∨
          (∃ label, target = .whole label ∧ c.actions id ≠ []) ∨
          (∃ index label member candidate, target = .action index label ∧ (member, candidate) ∈ c.actions id ∧
            (root.candidatesAt member.position).length ≤ index) ∨
          ∃ chosen ∈ c.chosenLabels id root target, ∃ cause, s.engine.Refuses chosen cause) ∧
      (∀ cause, c.Misfits id root target cause → ∀ context,
        s.plan.serializeInto root target context = ⟨context, some cause⟩) ∧
      (s.engine.readLabel = ParsedLabel.read → ∀ cause,
        ¬s.engine.Refuses (some (.raw ParsedLabel.sharedText)) cause) ∧
      ∀ e, (s.serialize default x).result = .error e → (s.serializeLabeled default x .none).result = .error e := by
  intro result root
  have failures (e : Error) : result = .error e ↔ ∃ cause, e = .label cause ∧
      First (c.Misfits id root target :: (c.chosenLabels id root target).map s.engine.Refuses) cause := by
    have written (cause : LabelError) :
        (s.plan.serialize s.engine s.options default root target).result = .error cause ↔
          First (c.Misfits id root target :: (c.chosenLabels id root target).map s.engine.Refuses) cause :=
      Plan.serialize_eq_error_iff compiled
    simp only [← written]
    change ((s.plan.serialize s.engine s.options default root target).result.mapError Error.label).map _ = _ ↔ _
    cases (s.plan.serialize s.engine s.options default root target).result with
    | ok output => simp [Except.mapError, Except.map]
    | error cause => simp [Except.mapError, Except.map, eq_comm]
  refine ⟨failures, ?_, fun cause misfits => s.plan.serializeInto_of_misfits compiled misfits,
    fun reads cause => Engine.not_refuses_shared reads, fun e => serializeLabeled_of_serialize⟩
  have either : (∃ e, result = .error e) ↔
      ∃ cause, First (c.Misfits id root target :: (c.chosenLabels id root target).map s.engine.Refuses) cause := by
    simp only [failures]
    exact ⟨fun ⟨e, cause, _, first⟩ => ⟨cause, first⟩, fun ⟨cause, first⟩ => ⟨_, cause, rfl, first⟩⟩
  rw [either, First.exists_iff, List.exists_mem_cons_iff, Catalogue.exists_misfits_iff, or_assoc, or_assoc]
  simp only [List.mem_map, exists_exists_and_eq_and]

/-- A batch whose second slip has a label that is refused, and no fourth slip. -/
theorem serialize_fails_iff_batch :
    let s : Serializer Record Unit := ⟨fun record => record, .reference 0, {}, .empty, Batch.plan .native, none, 0⟩
    let batch := Batch.record [Batch.slip (some "4") 2 5, Batch.slip (some "bad") 4 6, Batch.slip none 6 0]
    (∃ e, (s.serializeLabeled .compact batch .none).result = .error e) ∧
      (∀ e, (s.serializeLabeled .compact batch (.action 1 (.raw "1"))).result ≠ .error e) ∧
      ∀ context, s.plan.serializeInto batch (.action 3 (.raw "1")) context =
        ⟨context, some (.noSuchAction 3 3 "Batch")⟩ := by
  intro s batch
  have compiled : Plan.compile Batch.catalogue .empty .native 0 = .ok s.plan := Batch.compile_eq .native
  obtain ⟨-, refused, -, -, -⟩ := serialize_fails_iff compiled .compact batch .none
  obtain ⟨-, -, untouched, -, -⟩ := serialize_fails_iff compiled .compact batch (.action 3 (.raw "1"))
  have misfits : Batch.catalogue.Misfits 0 batch (.action 3 (.raw "1")) (.noSuchAction 3 3 "Batch") :=
    have one : (⟨1, "slips"⟩, 1) ∈ Batch.catalogue.actions 0 := List.mem_singleton_self _
    have far : (batch.candidatesAt 1).length ≤ 3 := Nat.le_refl 3
    .noSuchAction one far
  have accepted : (s.serializeLabeled .compact batch (.action 1 (.raw "1"))).result.isOk = true := by decide +kernel
  refine ⟨refused.2 (.inr (.inr (.inr ⟨some (.raw "bad"), by decide +kernel, _, _, rfl, rfl⟩))), fun e failed => ?_,
    untouched _ misfits⟩
  rw [failed] at accepted
  cases accepted

end Serializer

end FeatureLines
