import FeatureLines.Proofs.Serializer.Happenings
import FeatureLines.Proofs.Serializer.Parts
import FeatureLines.Serializer.Basic

/-!
# Presentation

How an example is presented, that is, in which forms, in which format of weights and with which warnings, makes no
difference to the example. The events differ in the warnings alone, and these are the weights that overflow, in the order
in which they are written (`Plan.happenings`).

Main statement: `Plan.serialize_presentation`.
-/

namespace FeatureLines

/-! ## Marshallers that do not ask for the text form -/

namespace Writing

variable {text text' : Bool}

lemma Blind.symm {w : Writing} (blind : w.Blind text text') : w.Blind text' text := by
  induction w with
  | done => trivial
  | indicator _ _ ih => exact ih blind
  | weighted _ _ _ ih => exact ih blind
  | dense _ _ _ ih => exact ih blind
  | preallocate _ _ ih => exact ih blind
  | render _ _ ih => exact fun made => ih made (blind made)
  | remember _ _ _ _ ih => exact fun made => ih made (blind made)
  | look _ ih =>
    intro engine hash
    obtain ⟨same, onward⟩ := blind engine hash
    rw [← same]
    exact ⟨rfl, ih _ onward⟩
  | report _ _ ih => exact ih blind

/-- An ordinary writing does not look at the context at all. -/
lemma Ordinary.blind {feature : Feature} {w : Writing} (ordinary : w.Ordinary feature) : w.Blind text text' := by
  induction w with
  | done => trivial
  | indicator _ _ ih => exact ih ordinary.2
  | weighted _ _ _ ih => exact ih ordinary.2
  | dense _ _ _ ih => exact ih ordinary
  | preallocate _ _ ih => exact ih ordinary
  | render _ _ ih => exact fun made => ih made (ordinary made)
  | remember _ _ _ _ ih => exact fun made => ih made (ordinary.2 made)
  | look _ => exact ordinary.elim
  | report _ _ ih => exact ih ordinary

end Writing

/-- If being told of the text form makes no difference at all, it makes none whatever is told. -/
lemma Step.Blind.any {space : Namespace} {s : Step} (blind : s.Blind false true space) (text text' : Bool) :
    s.Blind text text' space := by
  intro cell
  cases text <;> cases text'
  · exact .refl false _
  · exact blind cell
  · exact (blind cell).symm
  · exact .refl true _

namespace Plan

variable {c : Catalogue} {r : Registry} {kind kind' : OutputKind} {id : Nat} {p : Plan} {options options' : Options}

/-- If the marshallers of the caller do not ask for the text form, none does. -/
lemma blind_of_custom (compiled : Plan.compile c r kind id = .ok p)
    (custom : ∀ b ∈ p.blocks, ∀ s ∈ b.steps, s.isCustom = true → s.Blind false true b.runtime) (text text' : Bool) :
    ∀ b ∈ p.blocks, ∀ s ∈ b.steps, s.Blind text text' b.runtime := by
  intro b mem s step
  cases source : s.isCustom with
  | true => exact (custom b mem s step source).any text text'
  | false => exact fun cell => (ordinary_of_compile compiled mem step source cell).blind

/-- What is compiled does not depend on the kind. -/
lemma compile_ofKind (c : Catalogue) (r : Registry) (kind kind' : OutputKind) (id : Nat) :
    Plan.compile c r kind' id = (Plan.compile c r kind id).map (·.ofKind kind') := by
  rw [Plan.compile, Plan.compile, Except.map_bind]
  refine bind_congr fun line => ?_
  rw [Except.map_bind]
  refine bind_congr fun found => ?_
  rcases found with _ | ⟨member, candidate⟩
  · rfl
  · simp only [Except.map_bind]
    rfl

/-- The events of a serialization are what happened in it. -/
lemma serialize_events (p : Plan) (engine : Engine) (options : Options) (default : FloatFormat) (root : Record)
    (target : LabelTarget) :
    (p.serialize engine options default root target).events =
      (p.happenings engine options default root target).flatMap (Happening.events options.precisionWarnings) := by
  have written := emitRows_reports (p.rows root target) (p.start engine options default)
  unfold serialize serializeInto happenings
  cases p.misfit? root target with
  | some cause => rfl
  | none =>
    simp only [emit_eq_emitRows, Context.new, Bool.false_or]
    have recorded := written.events
    split
    · exact recorded
    · exact recorded

/-- What is written does not depend on whether warnings are given. -/
lemma serialize_warnings (p : Plan) (engine : Engine) (options : Options) (precisionWarnings : Bool)
    (default : FloatFormat) (root : Record) (target : LabelTarget) :
    (p.serialize engine { options with precisionWarnings } default root target).result =
      (p.serialize engine options default root target).result := by
  have resumes : (p.start engine { options with precisionWarnings } default).Resumes [] [] (p.start engine options default) :=
    ⟨precisionWarnings, _, _, rfl⟩
  have alike : (p.start engine { options with precisionWarnings } default).Alike _ _ (p.start engine options default) :=
    ⟨rfl, rfl, rfl, rfl, rfl, rfl, rfl, rfl, rfl⟩
  obtain ⟨written, failed⟩ := emitRows_resumes resumes (p.rows root target)
  obtain ⟨built, -⟩ := emitRows_alike alike (p.rows root target) fun _ _ _ _ _ _ _ => Writing.Blind.refl _ _
  obtain ⟨lines, multiLine⟩ := built.finish
  rw [serialize_result, serialize_result, failed]
  split
  · rfl
  · exact congrArg Except.ok (Output.ext lines written.text_finish multiLine)

/-- In another form and format, with other warnings, the same happens. -/
lemma happenings_ofKind (p : Plan) (engine : Engine) (dictify : options.dictify = options'.dictify)
    (default default' : FloatFormat)
    (blind : ∀ b ∈ p.blocks, ∀ s ∈ b.steps,
      s.Blind (decide (p.kind = .nativeAndText)) (decide (kind' = .nativeAndText)) b.runtime)
    (root : Record) (target : LabelTarget) :
    p.happenings engine options default root target =
      (p.ofKind kind').happenings engine options' default' root target := by
  have start : (p.start engine options default).Alike (decide (p.kind = .nativeAndText))
      (decide (kind' = .nativeAndText)) ((p.ofKind kind').start engine options' default') :=
    ⟨rfl, rfl, rfl, dictify, rfl, rfl, rfl, rfl, rfl⟩
  have refused : (p.ofKind kind').misfit? root target = p.misfit? root target := rfl
  have rows : (p.ofKind kind').rows root target = p.rows root target := rfl
  unfold happenings
  rw [refused, rows]
  cases p.misfit? root target with
  | some cause => rfl
  | none => exact rowsHappenings_alike (fun row mem b block => blind b (mem_blocks_of_mem_rows mem block)) start

end Plan

/-! ## Comparing the forms -/

namespace Serializer

variable {α η : Type}

/-- A serializer compares the two forms in the same way whether or not it was built for text. -/
lemma validate_build (recordOf : α → Record) (c : Catalogue) (id : Nat) (r : Registry) (engine : Engine)
    (options : Options) (text : Bool) :
    (build (η := η) recordOf c id r engine { options with text }).map validate =
      (build (η := η) recordOf c id r engine options).map validate := by
  rw [build, build]
  simp only [Except.map_bind]
  refine bind_congr (m := Except Error) fun _ => ?_
  rw [Plan.compile_ofKind c r options.outputKind]
  cases Plan.compile c r options.outputKind id with
  | error failure => rfl
  | ok p => rfl

lemma validate_buildCached (recordOf : α → Record) (comparer : Comparer α η) (c : Catalogue) (id : Nat) (r : Registry)
    (engine : Engine) (options : Options) (text : Bool) :
    (buildCached recordOf comparer c id r engine { options with text }).map validate =
      (buildCached recordOf comparer c id r engine options).map validate := by
  have uncached (x : Except Error (Serializer α η)) (memory : Memory α η) :
      (x >>= fun s => .ok { s with memory := some memory }).map validate = x.map validate := by
    cases x <;> rfl
  rw [buildCached, buildCached, Except.map_bind ((Cache.new _).mapError _), Except.map_bind ((Cache.new _).mapError _)]
  refine bind_congr (m := Except Error) fun cache => ?_
  exact (uncached _ _).trans ((validate_build recordOf c id r engine options text).trans (uncached _ _).symm)

end Serializer

namespace Plan

/-- The example does not depend on how it is presented, if no marshaller asks for the text form. Plans of both kinds are
the same but for the kind. Two serializations that differ in kind, format of weights and warnings build the same example
or fail with the same cause, and the same happens in them: each records the events, and if it is to warn, the weights
written to an open namespace that overflow. Warnings change nothing else, whatever the marshallers do. A comparison of
both forms is the same whether or not the serializer was built for text. -/
theorem serialize_presentation {c : Catalogue} {r : Registry} {kind : OutputKind} {id : Nat} {p : Plan}
    (compiled : Plan.compile c r kind id = .ok p)
    (custom : ∀ b ∈ p.blocks, ∀ s ∈ b.steps, s.isCustom = true → s.Blind false true b.runtime) :
    (∀ engine options options' default default' kind' root target, options.dictify = options'.dictify →
      let one := p.serialize engine options default root target
      let other := (p.ofKind kind').serialize engine options' default' root target
      let happenings := p.happenings engine options default root target
      Plan.compile c r kind' id = .ok (p.ofKind kind') ∧
      other.result.map Output.native = one.result.map Output.native ∧
      one.events = happenings.flatMap (Happening.events options.precisionWarnings) ∧
      other.events = happenings.flatMap (Happening.events options'.precisionWarnings)) ∧
    (∀ engine options precisionWarnings default root target,
      (p.serialize engine { options with precisionWarnings } default root target).result =
        (p.serialize engine options default root target).result) ∧
    ∀ (α η : Type) (recordOf : α → Record) (comparer : Comparer α η) engine options text,
      (Serializer.build (η := η) recordOf c id r engine { options with text }).map Serializer.validate =
        (Serializer.build (η := η) recordOf c id r engine options).map Serializer.validate ∧
      (Serializer.buildCached recordOf comparer c id r engine { options with text }).map Serializer.validate =
        (Serializer.buildCached recordOf comparer c id r engine options).map Serializer.validate := by
  refine ⟨?_, fun engine options warnings default root target => ?_, fun α η recordOf comparer engine options text => ?_⟩
  · intro engine options options' default default' kind' root target dictify one other happenings
    have blind := blind_of_custom compiled custom
    have recorded := (p.ofKind kind').serialize_events engine options' default' root target
    refine ⟨?_, ?_, p.serialize_events engine options default root target, ?_⟩
    · rw [compile_ofKind c r kind kind', compiled]
      rfl
    · have native : ((p.ofKind p.kind).serialize engine options default root target).result.map Output.native =
          other.result.map Output.native := p.serialize_native engine dictify (blind _ _) root target
      exact native.symm
    · rwa [← p.happenings_ofKind engine dictify default default' (blind _ _) root target] at recorded
  · exact p.serialize_warnings engine options warnings default root target
  · exact ⟨Serializer.validate_build recordOf c id r engine options text,
      Serializer.validate_buildCached recordOf comparer c id r engine options text⟩

/-- A shop has the same example in both forms, with a marshaller of its own and an item whose size overflows. The one
that warns has an event. -/
theorem serialize_presentation_shop :
    let large := Cell.record ⟨3, ⟨"Item", .record 1⟩⟩
      [some (.leaf ⟨4, Shop.number⟩ (.scalar (.integer (10 ^ 39)))), some (.leaf ⟨5, Shop.text⟩ (.scalar (.text "red")))]
    let loud : Options := { precisionWarnings := true, floatFormat := some .scientific }
    let one := (Shop.plan .native).serialize (.reference 7) {} .compact (Shop.record (some large)) .none
    let other := (Shop.plan .nativeAndText).serialize (.reference 7) loud .compact (Shop.record (some large)) .none
    (∀ b ∈ (Shop.plan .native).blocks, ∀ s ∈ b.steps, s.isCustom = true → s.Blind false true b.runtime) ∧
      other.result.map Output.native = one.result.map Output.native ∧ one.events.length = 0 ∧ other.events.length = 1 := by
  intro large loud one other
  have mark : Step.Blind false true (.make (some "attrs") none) ⟨Shop.mark, Shop.marker, .override⟩ := by
    intro cell
    unfold Handle.write
    split
    · trivial
    · split <;> trivial
  have custom : ∀ b ∈ (Shop.plan .native).blocks, ∀ s ∈ b.steps, s.isCustom = true → s.Blind false true b.runtime := by
    simpa [blocks, Shop.plan, Shop.step, Step.isCustom] using mark
  obtain ⟨runs, -, -⟩ := serialize_presentation (Shop.compile_eq .native) custom
  obtain ⟨-, native, -, -⟩ := runs (.reference 7) {} loud .compact .compact .nativeAndText (Shop.record (some large)) .none rfl
  exact ⟨custom, native, by decide +kernel, by decide +kernel⟩

end Plan

end FeatureLines
