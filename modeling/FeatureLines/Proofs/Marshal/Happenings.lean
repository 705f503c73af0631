import FeatureLines.Proofs.Marshal.Alike

/-!
# What happens in a writing

Besides the output there are the events. Some come from the writing itself, and some are warnings of weights that
overflow. `Context.happenings` lists both before it is decided whether warnings are given: the events, and every weight
that is written to an open namespace, in the order in which they are written. What a context has recorded after a writing
follows from that and from its setting for warnings (`Context.Reports.run`), and contexts that build alike see the same
happen (`Context.Alike.happenings`).
-/

namespace FeatureLines

open Number

/-- An event, or a weight that is written to the open namespace. -/
inductive Happening where
  | event (event : Event)
  | weight (feature : String) (weight : Double)

/-- What is recorded of a happening: of a weight, that it is finite but infinite as a weight of the engine, if this is to
be warned of. -/
def Happening.events (warnings : Bool) : Happening → List Event
  | event e => [e]
  | weight name w => if warnings && w.isFinite && (w.convert .single).isInfinite then [.overflow name w] else []

namespace Context

/-- Weights are written to the open namespace, if there is one. -/
def weighing (c : Context) (name : String) (weights : List Double) : List Happening :=
  match c.current with
  | none => []
  | some _ => weights.map (.weight name)

/-- A text that is made is an event if it is counted. -/
def making (rendering : Rendering) : List Happening :=
  match rendering.counted with
  | some serial => [.event (.rendered serial)]
  | none => []

/-- A text is kept for a site already. -/
def recalls (c : Context) (feature : Feature) (site : Site) : Bool :=
  (c.dictifyAll || feature.dictify) && (c.memo.lookup site).isSome

/-- What happens in a writing, in order. -/
def happenings (c : Context) : Writing → List Happening
  | .done => []
  | .indicator name next => (c.addIndicator name).happenings next
  | .weighted name weight next => c.weighing name [weight] ++ (c.addWeighted name weight).happenings next
  | .dense anchor weights next => c.weighing "dense" weights ++ (c.addDense anchor weights).happenings next
  | .preallocate additional next => (c.preallocate additional).happenings next
  | .render rendering next => making rendering ++ (c.render rendering).1.happenings (next (c.render rendering).2)
  | .remember feature site rendering next =>
    (if c.recalls feature site then [] else making rendering) ++
      (c.remember feature site rendering).1.happenings (next (c.remember feature site rendering).2)
  | .look next => c.happenings (next c.view)
  | .report event next => .event event :: (c.record event).happenings next

/-- From one context to another, the settings stay, and what happened on the way is recorded. -/
structure Reports (happenings : List Happening) (c d : Context) : Prop where
  engine : d.engine = c.engine
  text : d.text = c.text
  floatFormat : d.floatFormat = c.floatFormat
  precisionWarnings : d.precisionWarnings = c.precisionWarnings
  dictifyAll : d.dictifyAll = c.dictifyAll
  multiLine : d.multiLine = c.multiLine
  events : d.events = c.events ++ happenings.flatMap (Happening.events c.precisionWarnings)

namespace Reports

/-- Where nothing is done, nothing happens. -/
lemma refl (c : Context) : c.Reports [] c := ⟨rfl, rfl, rfl, rfl, rfl, rfl, by simp⟩

/-- What happens on the way to a context and from there on happens in this order. -/
lemma trans {c d e : Context} {first second : List Happening} (h : c.Reports first d) (h' : d.Reports second e) :
    c.Reports (first ++ second) e where
  engine := h'.engine.trans h.engine
  text := h'.text.trans h.text
  floatFormat := h'.floatFormat.trans h.floatFormat
  precisionWarnings := h'.precisionWarnings.trans h.precisionWarnings
  dictifyAll := h'.dictifyAll.trans h.dictifyAll
  multiLine := h'.multiLine.trans h.multiLine
  events := by rw [h'.events, h.events, h.precisionWarnings, List.flatMap_append, List.append_assoc]

/-- Nothing happens when one more operation changes neither settings nor events. -/
lemma quiet {c d e : Context} {happenings : List Happening} (h : c.Reports happenings d) (h' : d.Reports [] e) :
    c.Reports happenings e := by
  have both := h.trans h'
  rwa [List.append_nil] at both

/-- A token on the line is no event. -/
lemma addToken (c : Context) (token : String) : c.Reports [] (c.addToken token) := by
  unfold Context.addToken
  split
  · exact ⟨rfl, rfl, rfl, rfl, rfl, rfl, by simp⟩
  · exact refl c

/-- A feature of the example is no event. -/
lemma addHashed (c : Context) (hash : UInt64) (weight : Single) : c.Reports [] (c.addHashed hash weight) :=
  ⟨rfl, rfl, rfl, rfl, rfl, rfl, by simp [Context.addHashed]⟩

/-- An event is recorded behind those before. -/
lemma record (c : Context) (event : Event) : c.Reports [.event event] (c.record event) :=
  ⟨rfl, rfl, rfl, rfl, rfl, rfl, rfl⟩

/-- A weight that is narrowed is recorded if it overflows and this is to be warned of. -/
lemma narrow (c : Context) (name : String) (weight : Double) :
    c.Reports [.weight name weight] (c.narrow name weight).1 := by
  unfold Context.narrow
  simp only
  split
  · rename_i warned
    exact ⟨rfl, rfl, rfl, rfl, rfl, rfl, by simp [Context.record, Happening.events, warned]⟩
  · rename_i silent
    exact ⟨rfl, rfl, rfl, rfl, rfl, rfl, by simp [Happening.events, silent]⟩

/-- The weight one of a feature is not narrowed. -/
lemma addIndicator (c : Context) (name : String) : c.Reports [] (c.addIndicator name) := by
  unfold Context.addIndicator
  split
  · exact refl c
  · exact (addHashed c _ _).quiet (addToken _ _)

/-- A weight is narrowed before it is decided whether it is kept, so it happens in either case. -/
lemma addWeighted (c : Context) (name : String) (weight : Double) :
    c.Reports (c.weighing name [weight]) (c.addWeighted name weight) := by
  have narrowed := narrow c name weight
  unfold Context.addWeighted weighing
  cases c.current with
  | none => exact refl c
  | some space =>
    simp only
    split
    · exact (narrowed.quiet (addHashed _ _ _)).quiet (addToken _ _)
    · exact narrowed

/-- The weight of an element has been narrowed before. -/
lemma addIndex (c : Context) (space index : UInt64) (weight : Single) : c.Reports [] (c.addIndex space index weight) :=
  (addHashed c _ _).quiet (addToken _ _)

/-- Every element of a dense vector is a weight that happens, kept or not. -/
lemma addElements (c : Context) (space index : UInt64) (weights : List Double) :
    c.Reports (weights.map (.weight "dense")) (c.addElements space index weights) := by
  induction weights generalizing c index with
  | nil => exact refl c
  | cons weight weights ih =>
    have narrowed := narrow c "dense" weight
    unfold Context.addElements
    simp only
    split
    · exact (narrowed.quiet (addIndex _ _ _ _)).trans (ih _ _)
    · exact narrowed.trans (ih _ _)

/-- The anchor of a dense vector is not narrowed. -/
lemma addDense (c : Context) (anchor : Bool) (weights : List Double) :
    c.Reports (c.weighing "dense" weights) (c.addDense anchor weights) := by
  unfold Context.addDense weighing
  cases c.current with
  | none => exact refl c
  | some space =>
    cases anchor with
    | true => exact (addIndex c _ _ _).trans (addElements _ _ _ _)
    | false => exact addElements c _ _ _

/-- Room for features is no event. -/
lemma preallocate (c : Context) (additional : Nat) : c.Reports [] (c.preallocate additional) :=
  ⟨rfl, rfl, rfl, rfl, rfl, rfl, by simp [Context.preallocate]⟩

/-- A text that is made is an event if it is counted. -/
lemma render (c : Context) (rendering : Rendering) : c.Reports (making rendering) (c.render rendering).1 := by
  unfold Context.render making
  cases rendering.counted with
  | none => exact refl c
  | some serial => exact record c _

/-- A text that is kept already is not made again. -/
lemma remember (c : Context) (feature : Feature) (site : Site) (rendering : Rendering) :
    c.Reports (if c.recalls feature site then [] else making rendering) (c.remember feature site rendering).1 := by
  have rendered := render c rendering
  unfold Context.remember recalls
  cases c.dictifyAll || feature.dictify with
  | false => exact rendered
  | true =>
    cases c.memo.lookup site with
    | some text => exact refl c
    | none =>
      exact ⟨rendered.engine, rendered.text, rendered.floatFormat, rendered.precisionWarnings, rendered.dictifyAll,
        rendered.multiLine, rendered.events⟩

/-- What happens in a writing is recorded. -/
theorem run (c : Context) (w : Writing) : c.Reports (c.happenings w) (c.run w) := by
  induction w generalizing c with
  | done => exact refl c
  | indicator name next ih => exact (addIndicator c name).trans (ih _)
  | weighted name weight next ih => exact (addWeighted c name weight).trans (ih _)
  | dense anchor weights next ih => exact (addDense c anchor weights).trans (ih _)
  | preallocate additional next ih => exact (preallocate c additional).trans (ih _)
  | render rendering next ih => exact (render c rendering).trans (ih _ _)
  | remember feature site rendering next ih => exact (remember c feature site rendering).trans (ih _ _)
  | look next ih => exact ih _ c
  | report event next ih => exact (record c event).trans (ih _)

/-- Nothing happens when a namespace is opened. -/
lemma beginNamespace (c : Context) (space : Namespace) : c.Reports [] (c.beginNamespace space) :=
  ⟨rfl, rfl, rfl, rfl, rfl, rfl, by simp [Context.beginNamespace]⟩

/-- Nothing happens when a namespace is closed. -/
lemma endNamespace (c : Context) : c.Reports [] c.endNamespace := by
  unfold Context.endNamespace
  split
  · exact refl c
  · exact ⟨rfl, rfl, rfl, rfl, rfl, rfl, by simp⟩

/-- Nothing happens when a line is ended. -/
lemma endLine (c : Context) : c.Reports [] c.endLine := by
  have ended := endNamespace c
  unfold Context.endLine
  simp only
  split
  · exact ended
  · exact ⟨ended.engine, ended.text, ended.floatFormat, ended.precisionWarnings, ended.dictifyAll, ended.multiLine,
      ended.events⟩

/-- Nothing happens when a line is started, and the one before is ended. -/
lemma startLine (c : Context) : c.Reports [] c.startLine := by
  unfold Context.startLine
  split
  · obtain ⟨engine, text, floatFormat, warnings, dictifyAll, multiLine, events⟩ := endLine c
    exact ⟨engine, text, floatFormat, warnings, dictifyAll, multiLine, events⟩
  · exact ⟨rfl, rfl, rfl, rfl, rfl, rfl, by simp⟩

/-- Nothing happens when a label is written. -/
lemma writeLabel {c d : Context} {label : String} (ok : c.writeLabel label = .ok d) : c.Reports [] d := by
  obtain ⟨parsed, -, rfl⟩ := Except.map_eq_ok.1 ok
  exact ⟨rfl, rfl, rfl, rfl, rfl, rfl, by simp⟩

end Reports

namespace Alike

variable {text text' : Bool} {c d : Context}

/-- Contexts that build alike have namespaces open alike, so weights happen in both or in neither. -/
lemma weighing (h : c.Alike text text' d) (name : String) (weights : List Double) :
    c.weighing name weights = d.weighing name weights := by
  unfold Context.weighing
  rcases h.current with ⟨left, right⟩ | ⟨space, space', left, right, -⟩
  · rw [left, right]
  · rw [left, right]

/-- The same happens in contexts that build alike. -/
theorem happenings (h : c.Alike text text' d) {w : Writing} (blind : w.Blind text text') :
    c.happenings w = d.happenings w := by
  induction w generalizing c d with
  | done => rfl
  | indicator name next ih => exact ih (h.addIndicator name) blind
  | weighted name weight next ih =>
    rw [Context.happenings, Context.happenings, h.weighing, ih (h.addWeighted name weight) blind]
  | dense anchor weights next ih =>
    rw [Context.happenings, Context.happenings, h.weighing, ih (h.addDense anchor weights) blind]
  | preallocate additional next ih => exact ih (h.preallocate additional) blind
  | render rendering next ih => exact congrArg (making rendering ++ ·) (ih _ (h.render rendering) (blind _))
  | remember feature site rendering next ih =>
    obtain ⟨remembered, same⟩ := h.remember feature site rendering
    have recalled : c.recalls feature site = d.recalls feature site := by rw [recalls, recalls, h.dictifyAll, h.memo]
    rw [Context.happenings, Context.happenings, same, recalled, ih _ remembered (blind _)]
  | look next ih =>
    -- engine and open namespace are the same in both, and for the text form there is `blind`
    obtain ⟨same, onward⟩ := blind c.engine (c.current.map OpenNamespace.hash)
    rw [Context.happenings, Context.happenings, view, view, ← h.engine, ← h.hash, h.text_left, h.text_right, ← same]
    exact ih _ h onward
  | report event next ih => exact congrArg (.event event :: ·) (ih (h.record event) blind)

end Alike

end Context

end FeatureLines
