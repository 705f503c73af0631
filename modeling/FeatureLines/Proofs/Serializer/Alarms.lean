import FeatureLines.Proofs.Example.Agreement
import FeatureLines.Proofs.Marshal.Reporting
import FeatureLines.Proofs.Serializer.Failures
import FeatureLines.Proofs.Serializer.LabelLines
import FeatureLines.Proofs.Serializer.Presentation
import FeatureLines.Proofs.Serializer.WellFormed

/-!
# Alarms of the validation

Whoever makes an example (`Example.Arises`), no weight in it is NaN, so it differs from itself in its label at most, and
there only by a NaN, which labels may have: `differences_self_iff`. A serialization with the marshallers of the library and
with labels that stay on their lines is read back as it was built, so the validation of a record is clean unless a NaN is
among its labels, and only then it warns of a disagreement.

Main statement: `Serializer.validate_isClean_iff`. The label `nan` is an alarm without a cause
(`Serializer.validate_not_isClean`).
-/

namespace FeatureLines

open Text

/-! ## Examples that arise -/

/-- An example comes from a context that is used in any way, from a serializer that has kept nothing yet and is called in
any way, or from a line that is read. -/
inductive Example.Arises (engine : Engine) (e : Example) : Prop
  | context (options : Options) (default : FloatFormat) (text : Bool) (uses : List Context.Use)
      (mem : e ∈ (uses.foldl Context.use { Context.new engine options default with text }).finish.lines)
  | serializer {α η : Type} [DecidableEq η] (s : Serializer α η) (own : s.engine = engine) (empty : s.cached = [])
      (format : FloatFormat) (calls : List (Call α)) (o : Output) (given : .output (.ok o) ∈ (Client.mk s format).run calls)
      (mem : e ∈ o.lines)
  | line (text : List Char) (read : Line.read engine text = .ok e)

variable {engine : Engine} {names : String → Prop}

/-- A serializer that keeps nothing keeps nothing wrong. -/
lemma Serializer.WellFormed.of_cached {α η : Type} {s : Serializer α η} (empty : s.cached = []) (all : ∀ name, names name) :
    s.WellFormed s.engine names := by
  refine ⟨rfl, fun name _ => all name, fun m found b bucket entry stored => ?_⟩
  have result : entry.2 ∈ s.cached := by
    unfold cached
    rw [found]
    exact List.mem_flatMap.2 ⟨b, bucket, List.mem_map_of_mem stored⟩
  rw [empty] at result
  cases result

namespace Example

variable {e : Example}

/-- An example that arises is well formed. -/
lemma Arises.wellFormed (arises : e.Arises engine) : e.WellFormed engine fun _ => True := by
  cases arises with
  | context options default text uses mem =>
    have start := (Context.WellFormed.new engine (fun _ => True) options default).of_eq
      (d := { Context.new engine options default with text }) rfl rfl rfl
    exact (start.uses fun _ _ _ _ => trivial).finish e mem
  | serializer s own empty format calls o given mem =>
    subst own
    exact Client.run_wellFormed (c := ⟨s, format⟩) (.of_cached empty fun _ => trivial) calls o given e mem
  | line text read => exact fun n mem =>
      have well := Line.read_wellFormed read n mem
      ⟨by obtain ⟨name, -, same⟩ := well.named; exact ⟨name, trivial, same⟩, well.nonempty, well.weights⟩

/-- In a well-formed example only the label can have a NaN. -/
lemma WellFormed.isNumeric_iff (well : e.WellFormed engine names) :
    e.IsNumeric ↔ ∀ label ∈ e.label, label.IsNumeric :=
  ⟨IsNumeric.label, fun numeric => ⟨numeric, fun n mem f feature => ((well n mem).weights f feature).2⟩⟩

/-- An example differs from itself in its label at most, and there exactly if the label has a NaN. -/
lemma WellFormed.differences_self (well : e.WellFormed engine names) :
    (e.differences e = [] ↔ ∀ label ∈ e.label, label.IsNumeric) ∧
      ∀ d ∈ e.differences e, d = .label e.label e.label := by
  refine ⟨by rw [differences_eq_nil, well.isNumeric_iff, and_iff_left (Agrees.refl e)], fun d mem => ?_⟩
  have namespaces : Difference.betweenAll 0 e.namespaces e.namespaces = [] :=
    (Difference.betweenAll_eq_nil rfl).2
      ⟨fun n mem f feature => ((well n mem).weights f feature).2, List.forall₂_same.2 fun n _ => .refl n⟩
  unfold differences at mem
  rw [namespaces, if_pos rfl, List.append_nil, List.append_nil] at mem
  split at mem
  · cases mem
  · exact List.mem_singleton.1 mem

end Example

/-! ## What is read back -/

namespace Output

/-- Lines that are read are compared. -/
lemma exists_lineDifferences {texts : List (List Char)} {natives : List Example}
    (read : List.Forall₂ (fun text e => Line.read engine text = .ok e) texts natives) (position : Nat) :
    ∃ differences, lineDifferences engine position texts natives = .ok differences := by
  induction read generalizing position with
  | nil => exact ⟨[], rfl⟩
  | cons first _ ih =>
    obtain ⟨rest, later⟩ := ih (position + 1)
    exact ⟨_, Except.bind_eq_ok.2 ⟨_, first, Except.bind_eq_ok.2 ⟨rest, later, rfl⟩⟩⟩

/-- A text that is read back as the examples is found to agree with them, but for examples with a NaN. -/
lemma crossValidate_of_readAll {o : Output} {text : String} (some_text : o.text = some text)
    (read : Line.readAll engine text.toList = .ok o.lines) :
    ∃ report, o.crossValidate engine = .ok report ∧ report.lines = o.lines.length ∧
      (report.isClean = true ↔ ∀ e ∈ o.lines, e.IsNumeric) := by
  have lines := Except.mapM_eq_ok.1 read
  obtain ⟨differences, compared⟩ := exists_lineDifferences lines 0
  obtain ⟨report, validated, count⟩ : ∃ report, o.crossValidate engine = .ok report ∧ report.lines = o.lines.length := by
    unfold crossValidate
    rw [some_text]
    exact ⟨_, Except.bind_eq_ok.2 ⟨differences, compared, rfl⟩, rfl⟩
  refine ⟨report, validated, count, ?_⟩
  have clean : report.isClean = true ↔
      List.Forall₂ (LineAgrees engine) (split (· == '\n') text.toList) o.lines := by
    simpa only [validated, some_text, Except.ok.injEq, exists_eq_left', Option.some.injEq] using
      o.crossValidate_isClean engine
  rw [clean]
  constructor
  · intro agree e mem
    obtain ⟨line, -, numeric, -⟩ := agree.exists_of_mem_right mem
    exact numeric
  · intro numeric
    have same : List.Forall₂ (fun e e' => e = e' ∧ e'.IsNumeric) o.lines o.lines :=
      List.forall₂_same.2 fun e mem => ⟨rfl, numeric e mem⟩
    refine lines.comp same fun line e _ e' read ⟨eq, numeric⟩ => ⟨numeric, e, read, ?_⟩
    rw [eq]
    exact .refl e'

end Output

/-! ## What is warned of -/

/-- What is said of whatever happens with one item is said of what happens with all. -/
lemma Context.forall_happeningsOf {α : Type} {emit : α → Context → Context} {happenings : α → Context → List Happening}
    {P : Happening → Prop} {items : List α} (each : ∀ item ∈ items, ∀ c, ∀ h ∈ happenings item c, P h) (c : Context) :
    ∀ h ∈ c.happeningsOf emit happenings items, P h := by
  induction items generalizing c with
  | nil => exact fun _ mem => nomatch mem
  | cons item items ih =>
    obtain ⟨first, others⟩ := List.forall_mem_cons.1 each
    exact List.forall_mem_append.2 ⟨first c, ih others _⟩

namespace Plan

variable {cat : Catalogue} {r : Registry} {kind : OutputKind} {id : Nat} {p : Plan}

lemma undisputed_block (compiled : Plan.compile cat r kind id = .ok p)
    (builtIn : ∀ b ∈ p.blocks, ∀ s ∈ b.steps, s.isCustom = false) (root : Record) {b : Block} (mem : b ∈ p.blocks)
    (c : Context) : ∀ h ∈ b.happenings root c, h.Undisputed := by
  refine Context.forall_happeningsOf (fun s step c => ?_) _
  obtain ⟨type, g, realizes⟩ := realizes_of_mem_blocks compiled mem
  obtain ⟨leaf, -, bound⟩ := realizes.steps.exists_of_mem_right step
  unfold Step.happenings
  split
  · refine Context.undisputed_happenings ?_ c
    rcases bound.handle_eq (builtIn b mem s step) with found | found
    · exact Handle.onlyMisbound_enumerizing found
    · exact Handle.onlyMisbound_builtIn found
  · exact fun _ mem => nomatch mem

lemma undisputed_row (compiled : Plan.compile cat r kind id = .ok p)
    (builtIn : ∀ b ∈ p.blocks, ∀ s ∈ b.steps, s.isCustom = false) {row : Row}
    (known : ∀ b ∈ row.plan.blocks, b ∈ p.blocks) (c : Context) : ∀ h ∈ row.happenings c, h.Undisputed := by
  have blocks (c : Context) : ∀ h ∈ row.plan.happenings row.root c, h.Undisputed :=
    Context.forall_happeningsOf (fun b mem => undisputed_block compiled builtIn row.root (known b mem)) c
  unfold Row.happenings
  split
  · exact blocks _
  · split
    · exact blocks _
    · exact fun _ mem => nomatch mem

/-- A serialization with the marshallers of the library never says that the two forms disagree. -/
theorem disagreement_not_mem_events (compiled : Plan.compile cat r kind id = .ok p)
    (builtIn : ∀ b ∈ p.blocks, ∀ s ∈ b.steps, s.isCustom = false) (engine : Engine) (options : Options)
    (default : FloatFormat) (root : Record) (target : LabelTarget) (differences : Nat) :
    .disagreement differences ∉ (p.serialize engine options default root target).events := by
  have rows (rows : List Row) (known : ∀ row ∈ rows, ∀ b ∈ row.plan.blocks, b ∈ p.blocks) (c : Context) :
      ∀ h ∈ rowsHappenings c rows, h.Undisputed := by
    induction rows generalizing c with
    | nil => exact fun _ mem => nomatch mem
    | cons row rest ih =>
      obtain ⟨first, others⟩ := List.forall_mem_cons.1 known
      refine List.forall_mem_append.2 ⟨undisputed_row compiled builtIn first c, ?_⟩
      split
      · exact fun _ mem => nomatch mem
      · exact ih others _
  rw [serialize_events]
  intro mem
  obtain ⟨h, happens, recorded⟩ := List.mem_flatMap.1 mem
  refine Happening.Undisputed.events ?_ _ differences recorded
  unfold happenings at happens
  split at happens
  · cases happens
  · exact rows _ (fun row mem b block => mem_blocks_of_mem_rows mem block) _ h happens

end Plan

/-! ## Records -/

/-- No label that is chosen for a line has a NaN. -/
def NumericLabels (engine : Engine) (chosen : List (Option Label)) : Prop :=
  ∀ label, some label ∈ chosen → ∀ parsed, engine.readLabel label.text.toList = .ok parsed → parsed.IsNumeric

/-- A line that is written for a chosen label has a NaN in its label if the text of the chosen one has. -/
lemma Line.Shows.isNumeric_iff {chosen : Option Label} {shown : String × Example}
    (shows : Line.Shows engine (chosen.map Label.text) shown) :
    (∀ label, some label = chosen → ∀ parsed, engine.readLabel label.text.toList = .ok parsed → parsed.IsNumeric) ↔
      ∀ label ∈ shown.2.label, label.IsNumeric := by
  cases chosen with
  | none =>
    obtain ⟨none, -⟩ := shows
    refine iff_of_true (fun _ other => nomatch other) fun label mem => ?_
    rw [none] at mem
    cases mem
  | some label =>
    obtain _ | ⟨accepted, written, -, -⟩ := shows
    simp only [written, Option.mem_def, Option.some.injEq, forall_eq, forall_eq']
    constructor
    · exact fun numeric => numeric _ accepted
    · intro numeric parsed read
      cases accepted.symm.trans read
      exact numeric

namespace Plan

variable {cat : Catalogue} {r : Registry} {id : Nat} {p : Plan}

/-- Labels that are accepted are written. -/
lemma exists_serialize (compiled : Plan.compile cat r .nativeAndText id = .ok p) (options : Options)
    (default : FloatFormat) {root : Record}
    (accepted : ∀ label, some label ∈ cat.chosenLabels id root .none →
      ∃ parsed, engine.readLabel label.text.toList = .ok parsed) :
    ∃ o, (p.serialize engine options default root .none).result = .ok o := by
  cases result : (p.serialize engine options default root .none).result with
  | ok o => exact ⟨o, rfl⟩
  | error cause =>
    obtain ⟨fault, mem, failure, present⟩ := First.exists_iff.1 ⟨cause, (serialize_eq_error_iff compiled).1 result⟩
    rcases List.mem_cons.1 mem with rfl | refused
    · cases present
    · obtain ⟨chosen, known, rfl⟩ := List.mem_map.1 refused
      obtain ⟨label, rfl, error⟩ := present
      obtain ⟨parsed, ok⟩ := accepted label known
      cases error.symm.trans ok

/-- The labels that are chosen for lines are their heads. -/
lemma not_newline_mem_heads (compiled : Plan.compile cat r .nativeAndText id = .ok p) {root : Record} {target : LabelTarget}
    (oneLine : ∀ label, some label ∈ cat.chosenLabels id root target → '\n' ∉ label.text.toList) :
    ∀ text ∈ p.heads root target, '\n' ∉ text.toList := by
  intro text mem
  obtain ⟨row, found, head⟩ := List.mem_filterMap.1 mem
  have chosen : some text ∈ (cat.chosenLabels id root target).map (Option.map Label.text) :=
    heads_rows compiled root target ▸ head ▸ List.mem_map_of_mem found
  obtain ⟨_, known, eq⟩ := List.mem_map.1 chosen
  obtain ⟨label, rfl, rfl⟩ := Option.map_eq_some_iff.1 eq
  exact oneLine label known

section

variable (compiled : Plan.compile cat r .nativeAndText id = .ok p)
  (builtIn : ∀ b ∈ p.blocks, ∀ s ∈ b.steps, s.isCustom = false) {options : Options} {default : FloatFormat} {root : Record}
  {target : LabelTarget} {o : Output} (ok : (p.serialize engine options default root target).result = .ok o)

include compiled builtIn ok

/-- With the marshallers of the library, names for features, and labels that stay on their lines, a record is read back
as it was built. -/
theorem readAll_of_builtIn (regular : engine.Regular) (named : ∀ b ∈ p.blocks, ∀ s ∈ b.steps, s.descriptor.name ≠ "")
    (oneLine : ∀ label, some label ∈ cat.chosenLabels id root target → '\n' ∉ label.text.toList) :
    ∃ text, o.text = some text ∧ Line.readAll engine text.toList = .ok o.lines := by
  have legible : ∀ b ∈ p.blocks, b.Legible engine := legible_of_custom compiled named fun b mem s step custom => by
    rw [builtIn b mem s step] at custom
    cases custom
  exact readAll_of_legible (compile_spec compiled).1 regular legible (not_newline_mem_heads compiled oneLine) ok

/-- A line is written for every label that is chosen, and only these labels can have a NaN. -/
theorem isNumeric_of_builtIn :
    o.lines.length = (cat.chosenLabels id root target).length ∧
      ((∀ e ∈ o.lines, e.IsNumeric) ↔ NumericLabels engine (cat.chosenLabels id root target)) := by
  have known : ∀ name ∈ p.spaceNames, (fun _ => True) name := fun _ _ => trivial
  have well := Plan.serialize_wellFormed known ok
  have unbroken : ∀ b ∈ p.blocks, b.OneLine engine := oneLine_of_custom compiled fun b mem s step custom => by
    rw [builtIn b mem s step] at custom
    cases custom
  obtain ⟨written, rfl⟩ := serialize_eq_ok ok
  have idle := p.idle_start engine options default
  obtain ⟨shown, shows, idle, -, -⟩ := shows_emitRows idle (text_start (compile_spec compiled).1 engine options default)
    (fun row mem b block => unbroken b (mem_blocks_of_mem_rows mem block)) written
  rw [heads_rows compiled root target, List.forall₂_map_left_iff] at shows
  rw [Output.WellFormed, idle.finish, List.nil_append] at well
  rw [idle.finish, List.nil_append, List.length_map, ← shows.length_eq, List.forall_mem_map]
  refine ⟨rfl, Iff.trans ?_ (shows.forall_iff fun chosen line _ shows => shows.isNumeric_iff).symm |>.trans ?_⟩
  · exact forall₂_congr fun line mem => (well _ (List.mem_map_of_mem mem)).isNumeric_iff
  · exact ⟨fun all label mem => all _ mem label rfl, fun all chosen mem label eq => all label (eq ▸ mem)⟩

end

end Plan

section

variable {α η : Type} {s : Serializer α η} {cat : Catalogue} {r : Registry} {kind : OutputKind} {id : Nat}
  (compiled : Plan.compile cat r kind id = .ok s.plan) (regular : s.engine.Regular)
  (builtIn : ∀ b ∈ s.plan.blocks, ∀ step ∈ b.steps, step.isCustom = false)
  (named : ∀ b ∈ s.plan.blocks, ∀ step ∈ b.steps, step.descriptor.name ≠ "") (default : FloatFormat) {x : α}
  (accepted : ∀ label, some label ∈ cat.chosenLabels id (s.recordOf x) .none →
    (∃ parsed, s.engine.readLabel label.text.toList = .ok parsed) ∧ '\n' ∉ label.text.toList)

include compiled regular builtIn named accepted

/-- The validation of a record with labels that are accepted and stay on their lines. -/
lemma Serializer.validate_spec :
    ∃ report, (s.validate default x).1 = .ok report ∧
      report.lines = (cat.chosenLabels id (s.recordOf x) .none).length ∧
      (report.isClean = true ↔ NumericLabels s.engine (cat.chosenLabels id (s.recordOf x) .none)) ∧
      ∀ n, .disagreement n ∈ (s.validate default x).2 ↔ report.isClean = false ∧ n = report.differences.length := by
  have both : Plan.compile cat r .nativeAndText id = .ok s.bothForms := by
    rw [Plan.compile_ofKind cat r kind .nativeAndText id, compiled]
    rfl
  obtain ⟨o, ok⟩ := Plan.exists_serialize both s.options default fun label mem => (accepted label mem).1
  obtain ⟨text, made, read⟩ :=
    Plan.readAll_of_builtIn both builtIn ok regular named fun label mem => (accepted label mem).2
  obtain ⟨count, numeric⟩ := Plan.isNumeric_of_builtIn both builtIn ok
  obtain ⟨report, validated, lines, clean⟩ := Output.crossValidate_of_readAll made read
  have reported : s.validate default x =
      (.ok report, (s.bothForms.serialize s.engine s.options default (s.recordOf x) .none).events ++ report.events) := by
    unfold validate
    simp only [ok, Except.mapError, Except.bind, validated]
  have undisputed := Plan.disagreement_not_mem_events both builtIn s.engine s.options default (s.recordOf x) .none
  rw [reported]
  refine ⟨report, rfl, lines.trans count, clean.trans numeric, fun n => ?_⟩
  rw [List.mem_append, or_iff_right (undisputed n), ValidationReport.events]
  cases report.isClean <;> simp

/-- Whoever makes an example, it differs from itself in its label at most, and exactly if the label has a NaN. A record with
labels that are accepted and stay on their lines is validated, if its features have names and the marshallers of the
library: there is a line for each label that is chosen, and the report is clean exactly if none of them has a NaN. That the
two forms disagree is warned of exactly if the report is not clean, with the number of its differences. -/
theorem Serializer.validate_isClean_iff :
    (∀ e : Example, e.Arises s.engine → (e.differences e = [] ↔ ∀ label ∈ e.label, label.IsNumeric) ∧
      ∀ d ∈ e.differences e, d = .label e.label e.label) ∧
      ∃ report, (s.validate default x).1 = .ok report ∧
        report.lines = (cat.chosenLabels id (s.recordOf x) .none).length ∧
        (report.isClean = true ↔ NumericLabels s.engine (cat.chosenLabels id (s.recordOf x) .none)) ∧
        ∀ n, .disagreement n ∈ (s.validate default x).2 ↔ report.isClean = false ∧ n = report.differences.length :=
  ⟨fun _ arises => arises.wellFormed.differences_self, s.validate_spec compiled regular builtIn named default accepted⟩

end

namespace Slip

/-- A serializer of slips that all have one label. -/
def serializer (label : String) : Serializer Unit Unit :=
  ⟨fun _ => (emission label).root, .reference 0, { text := true }, .empty, plan, none, 0⟩

end Slip

lemma Slip.accepted {text : String} {parsed : ParsedLabel} (read : ParsedLabel.read text.toList = .ok parsed)
    (oneLine : '\n' ∉ text.toList) :
    ∀ label, some label ∈ catalogue.chosenLabels 0 ((serializer text).recordOf ()) .none →
      (∃ parsed, ParsedLabel.read label.text.toList = .ok parsed) ∧ '\n' ∉ label.text.toList := by
  intro label mem
  have chosen : catalogue.chosenLabels 0 ((serializer text).recordOf ()) .none = [some (.raw text)] := rfl
  rw [chosen] at mem
  cases List.mem_singleton.1 mem
  exact ⟨⟨parsed, read⟩, oneLine⟩

/-- A slip with a number for its label is validated without an alarm. -/
theorem Serializer.validate_isClean_iff_slip :
    ∃ report, ((Slip.serializer "2").validate .compact ()).1 = .ok report ∧ report.lines = 1 ∧ report.isClean = true := by
  have builtIn : ∀ b ∈ Slip.plan.blocks, ∀ s ∈ b.steps, s.isCustom = false := by decide +kernel
  have named : ∀ b ∈ Slip.plan.blocks, ∀ s ∈ b.steps, s.descriptor.name ≠ "" := by decide +kernel
  have read : ParsedLabel.read "2".toList = .ok (.simple (.ofInt _ 2) (.one _)) := by decide +kernel
  obtain ⟨-, report, validated, lines, clean, -⟩ := Serializer.validate_isClean_iff (s := Slip.serializer "2")
    Slip.compile_eq (Engine.reference_regular 0) builtIn named .compact (Slip.accepted read (by decide))
  refine ⟨report, validated, lines, clean.2 fun label mem parsed ok => ?_⟩
  cases List.mem_singleton.1 mem
  cases read.symm.trans ok
  exact ⟨by decide +kernel, by decide +kernel⟩

/-- A slip with the label `nan`, which is accepted, is said to disagree with itself. -/
theorem Serializer.validate_not_isClean :
    Plan.compile Slip.catalogue .empty .nativeAndText 0 = .ok Slip.plan ∧
      ParsedLabel.read "nan".toList = .ok (.simple .nan (.one _)) ∧
      (∃ e : Example, e.Arises (.reference 0) ∧ e.differences e ≠ []) ∧
      ∃ report, ((Slip.serializer "nan").validate .compact ()).1 = .ok report ∧ report.isClean = false ∧
        ∃ n, .disagreement n ∈ ((Slip.serializer "nan").validate .compact ()).2 := by
  have builtIn : ∀ b ∈ Slip.plan.blocks, ∀ s ∈ b.steps, s.isCustom = false := by decide +kernel
  have named : ∀ b ∈ Slip.plan.blocks, ∀ s ∈ b.steps, s.descriptor.name ≠ "" := by decide +kernel
  have read : ParsedLabel.read "nan".toList = .ok (.simple .nan (.one _)) := by decide +kernel
  have label : (Line.read (.reference 0) "nan".toList).map Example.label = .ok (some (.simple .nan (.one _))) := by
    decide +kernel
  obtain ⟨e, line, eq⟩ := Except.map_eq_ok.1 label
  obtain ⟨report, validated, -, clean, warned⟩ := Serializer.validate_spec (s := Slip.serializer "nan")
    Slip.compile_eq (Engine.reference_regular 0) builtIn named .compact (Slip.accepted read (by decide))
  have alarm : report.isClean = false := by
    rw [← Bool.not_eq_true, clean]
    intro numeric
    exact absurd (numeric _ (List.mem_singleton.2 rfl) _ read).1 (by decide)
  refine ⟨Slip.compile_eq, read, ⟨e, .line _ line, fun none => ?_⟩, report, validated, alarm, _, (warned _).2 ⟨alarm, rfl⟩⟩
  have numeric := (Example.differences_eq_nil.1 none).1.label
  rw [eq] at numeric
  exact absurd (numeric _ rfl).1 (by decide)

end FeatureLines
