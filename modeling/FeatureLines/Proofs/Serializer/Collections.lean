import FeatureLines.Proofs.Serializer.Failures

/-!
# Collections of candidates

The candidates of a record are the elements of the one collection that its type declares itself. Each of them is emitted as
a line, in order, behind the line that they share (`Plan.emits_candidates`): the lines of an output are what the rows of the
record write, one after the other, each in the context that the rows before it leave (`RowsMake`). A member contributes the
features of its type and nothing else: what a nested type declares as candidates adds no line (`Plan.not_emits_nested`).
-/

namespace FeatureLines

/-- A row is written to a context, and puts a line behind those that are there. -/
structure Row.Makes (row : Row) (c : Context) (line : Example) : Prop where
  written : (row.emit c).failure = none
  natives : (row.emit c).context.natives = c.natives ++ [line]

/-- From a context on, rows make lines: each row makes one in the context that the row before it leaves. -/
inductive RowsMake : Context → List Row → List Example → Prop
  | nil {c : Context} : RowsMake c [] []
  | cons {c : Context} {row : Row} {rows : List Row} {line : Example} {lines : List Example} (first : row.Makes c line)
    (rest : RowsMake (row.emit c).context rows lines) : RowsMake c (row :: rows) (line :: lines)

/-- There is a line for each row. -/
lemma RowsMake.length_eq {c : Context} {rows : List Row} {lines : List Example} (h : RowsMake c rows lines) :
    lines.length = rows.length := by
  induction h with
  | nil => rfl
  | cons _ _ ih => rw [List.length_cons, List.length_cons, ih]

/-- What lines are made is told by the context and the rows. -/
lemma RowsMake.unique {c : Context} {rows : List Row} {lines lines' : List Example} (h : RowsMake c rows lines)
    (h' : RowsMake c rows lines') : lines = lines' := by
  induction h generalizing lines' with
  | nil =>
    cases h'
    rfl
  | cons first _ ih =>
    cases h' with
    | cons first' rest' =>
      have same := List.append_cancel_left (first.natives.symm.trans first'.natives)
      rw [List.singleton_inj.1 same, ih rest']

/-- Rows that are written make lines. -/
lemma emitRows_makes {engine : Engine} {natives : List Example} {c : Context} (h : c.Idle engine natives) {rows : List Row}
    (ok : (emitRows c rows).failure = none) :
    ∃ lines, (emitRows c rows).context.Idle engine (natives ++ lines) ∧ RowsMake c rows lines := by
  induction rows generalizing c natives with
  | nil => exact ⟨[], by rwa [List.append_nil], .nil⟩
  | cons row rest ih =>
    obtain ⟨written, eq⟩ := emitRows_cons_failure ok
    rw [eq] at ok ⊢
    obtain ⟨line, idle, -⟩ := Row.emit_idle h written
    have makes : row.Makes c line := ⟨written, by rw [idle.natives_eq, h.natives_eq]⟩
    obtain ⟨lines, last, all⟩ := ih idle ok
    exact ⟨line :: lines, by rwa [List.append_cons], .cons makes all⟩

namespace Plan

variable {c : Catalogue} {r : Registry} {kind : OutputKind} {id : Nat} {p : Plan} {engine : Engine} {options : Options}
  {default : FloatFormat} {root : Record} {target : LabelTarget}

/-- The lines of an output are those that the rows of the record make, from an empty context on. -/
lemma makes_iff_of_serialize {o : Output} (ok : (p.serialize engine options default root target).result = .ok o)
    (lines : List Example) :
    RowsMake (p.start engine options default) (p.rows root target) lines ↔ lines = o.lines := by
  obtain ⟨written, rfl⟩ := serialize_eq_ok ok
  have start := p.idle_start engine options default
  obtain ⟨made, idle, makes⟩ := emitRows_makes start written
  rw [idle.finish, List.nil_append]
  constructor
  · exact fun also => also.unique makes
  · rintro rfl
    exact makes

/-- Outputs are marked as those of several lines when the type declares candidates. -/
lemma multiLine_of_compile (compiled : Plan.compile c r kind id = .ok p) {o : Output}
    (ok : (p.serialize engine options default root target).result = .ok o) : o.multiLine = !(c.actions id).isEmpty := by
  obtain ⟨written, rfl⟩ := serialize_eq_ok ok
  have start := p.idle_start engine options default
  obtain ⟨_, idle, -⟩ := emitRows_makes start written
  have marked : (emitRows (p.start engine options default) (p.rows root target)).context.finish.multiLine =
      p.isMultiLine := by
    unfold Context.finish
    rw [idle.endLine]
    -- no row changes the mark that a plan makes at the start
    exact (emitRows_reports _ _).multiLine
  rw [marked, isMultiLine]
  rcases (compile_spec compiled).2.2 with ⟨none, done⟩ | ⟨member, candidate, actions, one, -, done, -⟩
  · rw [none, done]
    rfl
  · rw [one, done]
    rfl

/-- A record is serialized when its target fits and no label that is chosen for a line is refused. -/
lemma serialize_eq_ok_iff (compiled : Plan.compile c r kind id = .ok p) :
    (∃ o, (p.serialize engine options default root target).result = .ok o) ↔
      (∀ cause, ¬c.Misfits id root target cause) ∧
        ∀ chosen ∈ c.chosenLabels id root target, ∀ cause, ¬engine.Refuses chosen cause := by
  have failures (cause : LabelError) : (p.serialize engine options default root target).result = .error cause ↔
      First (c.Misfits id root target :: (c.chosenLabels id root target).map engine.Refuses) cause :=
    serialize_eq_error_iff compiled
  have none : (¬∃ cause, First (c.Misfits id root target :: (c.chosenLabels id root target).map engine.Refuses) cause) ↔
      (∀ cause, ¬c.Misfits id root target cause) ∧
        ∀ chosen ∈ c.chosenLabels id root target, ∀ cause, ¬engine.Refuses chosen cause := by
    rw [First.exists_iff, List.exists_mem_cons_iff]
    simp only [List.mem_map, exists_exists_and_eq_and, not_or, not_exists, not_and]
  rw [← none]
  simp only [← failures]
  cases (p.serialize engine options default root target).result with
  | ok o => simp
  | error cause => simp

/-- No candidates but those of one collection of the type itself are compiled, and these have none. -/
lemma actions_of_compile (compiled : Plan.compile c r kind id = .ok p) :
    (c.actions id).length ≤ 1 ∧ ∀ member candidate, (member, candidate) ∈ c.actions id → c.actions candidate = [] := by
  rcases (compile_spec compiled).2.2 with ⟨none, -⟩ | ⟨member, candidate, actions, one, leaf, -⟩
  · rw [none]
    exact ⟨Nat.zero_le _, fun _ _ mem => nomatch mem⟩
  · rw [one]
    refine ⟨le_rfl, fun member' candidate' mem => ?_⟩
    cases List.mem_singleton.1 mem
    exact leaf

/-- In a schema that compiles, a type has at most one collection of candidates of its own, whose candidates have none. The
rows of a record are the record itself and each element of the collection, in order and no others, along the plans that
their types compile to and with the labels that are chosen for them. The lines of an output are those that these rows
make, one after the other in one context. An output is given when the target fits and no label is refused. A type with
several collections of its own, or with one whose candidates have one of their own, is not compiled. -/
theorem emits_candidates (c : Catalogue) (r : Registry) (kind : OutputKind) (id : Nat) :
    (∀ p, Plan.compile c r kind id = .ok p →
      ((c.actions id).length ≤ 1 ∧
        ∀ member candidate, (member, candidate) ∈ c.actions id → c.actions candidate = []) ∧
      ∀ engine options default root target,
        (∀ o, (p.serialize engine options default root target).result = .ok o →
          o.multiLine = !(c.actions id).isEmpty ∧
          List.Forall₂ (fun subject row => LinePlan.compile c r subject.1 = .ok row.plan ∧ row.root = subject.2)
            (c.lines id root) (p.rows root target) ∧
          (p.rows root target).map Row.head = (c.chosenLabels id root target).map (Option.map Label.text) ∧
          ∀ lines, RowsMake (p.start engine options default) (p.rows root target) lines ↔ lines = o.lines) ∧
        ((∃ o, (p.serialize engine options default root target).result = .ok o) ↔
          (∀ cause, ¬c.Misfits id root target cause) ∧
            ∀ chosen ∈ c.chosenLabels id root target, ∀ cause, ¬engine.Refuses chosen cause)) ∧
    ((1 < (c.actions id).length ∨
        ∃ member candidate, (member, candidate) ∈ c.actions id ∧ c.actions candidate ≠ []) →
      ∃ failure, Plan.compile c r kind id = .error failure) := by
  refine ⟨fun p compiled => ⟨actions_of_compile compiled, fun engine options default root target => ?_⟩, fun faulty => ?_⟩
  · exact ⟨fun o ok => ⟨multiLine_of_compile compiled ok, forall₂_rows compiled root target, heads_rows compiled root target,
      makes_iff_of_serialize ok⟩, serialize_eq_ok_iff compiled⟩
  · cases compiled : Plan.compile c r kind id with
    | error failure => exact ⟨failure, rfl⟩
    | ok p =>
      obtain ⟨one, leaf⟩ := actions_of_compile compiled
      rcases faulty with several | ⟨member, candidate, mem, nested⟩
      · exact absurd one (Nat.not_le.2 several)
      · exact absurd (leaf member candidate mem) nested

/-- A batch of three slips has four lines, made by the rows of the batch and of the slips. -/
theorem emits_candidates_batch :
    let batch := Batch.record [Batch.slip (some "4") 2 5, Batch.slip none 4 6, Batch.slip none 6 0]
    let rows := (Batch.plan .native).rows batch .none
    ∃ o, ((Batch.plan .native).serialize (.reference 0) {} .compact batch .none).result = .ok o ∧ o.multiLine = true ∧
      o.lines.length = 4 ∧
      List.Forall₂ (fun subject row => LinePlan.compile Batch.catalogue .empty subject.1 = .ok row.plan ∧
        row.root = subject.2) (Batch.catalogue.lines 0 batch) rows ∧
      rows.map Row.head = [some "shared", some "4", none, none] ∧
      RowsMake ((Batch.plan .native).start (.reference 0) {} .compact) rows o.lines := by
  intro batch rows
  obtain ⟨emits, -⟩ := emits_candidates Batch.catalogue .empty .native 0
  obtain ⟨-, lines⟩ := emits _ (Batch.compile_eq .native)
  obtain ⟨each, -⟩ := lines (.reference 0) {} .compact batch .none
  have given : ((Batch.plan .native).serialize (.reference 0) {} .compact batch .none).result.toOption.isSome = true := by
    decide +kernel
  cases ok : ((Batch.plan .native).serialize (.reference 0) {} .compact batch .none).result with
  | error failure =>
    rw [ok] at given
    cases given
  | ok o =>
    obtain ⟨multiLine, all, heads, lines⟩ := each o ok
    have made := (lines o.lines).2 rfl
    exact ⟨o, rfl, multiLine, made.length_eq, all, heads, made⟩

end Plan

/-! ## Collections below a member -/

namespace Depot

/-- A depot has a crate, and a crate has slips as candidates, which are no candidates of the depot. -/
def catalogue : Catalogue :=
  [⟨"Depot", [⟨"size", false, .feature {} Slip.number none⟩, ⟨"crate", false, .nested ⟨"Crate", .record 1⟩⟩]⟩,
    ⟨"Crate", [⟨"count", false, .feature {} Slip.number none⟩, ⟨"slips", false, .actions 2⟩]⟩,
    ⟨"Slip", [⟨"x", false, .feature {} Slip.number none⟩]⟩]

def size : Descriptor := .ofFeature ⟨0, "size", false⟩ {} .root Slip.number none
def count : Descriptor := (Descriptor.ofFeature ⟨0, "count", false⟩ {} .root Slip.number none).below ⟨1, "crate", false⟩

def step (d : Descriptor) : Step :=
  ⟨d, ⟨"featwire::marshal::NumericMarshaller", some Slip.number, fun _ => Handle.writeNumeric⟩, .builtIn⟩

def plan : Plan := ⟨.nativeAndText, ⟨"Depot", [⟨.make none none, false, [step size, step count]⟩], none⟩, none⟩

lemma compile_eq : Plan.compile catalogue .empty .nativeAndText 0 = .ok plan := by
  have extracted : catalogue.extract .root 0 = .ok [size, count] := by
    simp [Catalogue.extract, Catalogue.extractFields, Catalogue.fields, catalogue, Role.asMember?, Except.bind, Except.map,
      List.range, List.range.loop, size, count, Slip.number, Scope.enter, Scope.root, Descriptor.ofFeature]
  have grouped : groupFeatures "Depot" [size, count] = .ok [⟨⟨none, none, false⟩, [size, count]⟩] := by
    simp [groupFeatures, Group.collect, Group.add, Descriptor.key, Group.problem?, Group.sorted, List.mergeSort, size, count,
      Slip.number, Descriptor.ofFeature, Descriptor.below, Descriptor.isDense, Descriptor.shape, Form.shape, Scope.root]
  have line : LinePlan.compile catalogue .empty 0 = .ok plan.line :=
    Except.bind_eq_ok.2 ⟨_, extracted, Except.bind_eq_ok.2 ⟨_, grouped, rfl⟩⟩
  exact Except.bind_eq_ok.2 ⟨_, line, rfl⟩

def number (address : Nat) (value : Int) : Cell := .leaf ⟨address, Slip.number⟩ (.scalar (.integer value))

/-- A depot whose crate has two slips. -/
def record : Record :=
  [some (number 0 1), some (.record ⟨1, ⟨"Crate", .record 1⟩⟩
    [some (number 1 2), some (.candidates ⟨2, ⟨"Vec<Slip>", .candidates 2⟩⟩ [[some (number 3 3)], [some (number 4 4)]])])]

end Depot

/-- The slips of the crate in a depot are dropped: the schema compiles, and the depot is the only line. -/
theorem Plan.not_emits_nested :
    Plan.compile Depot.catalogue .empty .nativeAndText 0 = .ok Depot.plan ∧
      Depot.catalogue.actions 1 = [(⟨1, "slips"⟩, 2)] ∧
      (∃ site, Depot.record.follow? [1, 1] =
        some (.candidates site [[some (Depot.number 3 3)], [some (Depot.number 4 4)]])) ∧
      (Depot.plan.serialize (.reference 0) { text := true } .compact Depot.record .none).result.toOption.map
        (fun o => (o.lines.length, o.multiLine, o.text)) = some (1, false, some "| size:1 count:2") :=
  ⟨Depot.compile_eq, rfl, ⟨_, rfl⟩, by decide +kernel⟩

end FeatureLines
