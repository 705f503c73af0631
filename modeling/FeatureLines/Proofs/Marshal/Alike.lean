import FeatureLines.Marshal.Context
import FeatureLines.Proofs.Results

/-!
# Contexts that build alike

Two contexts are `Context.Alike` when they agree in everything that examples come from: engine, kept texts, the example
under construction and the lines that are finished. The text form, the format of weights and the warnings are left out. A
writing keeps two contexts alike as long as it does not ask for the text form (`Context.Alike.run`), and so does every
other operation.
-/

namespace FeatureLines

open Number

/-- For a writing that is told of one or of another state of the text form, this makes no difference. -/
def Writing.Blind (text text' : Bool) : Writing → Prop
  | done => True
  | indicator _ next => next.Blind text text'
  | weighted _ _ next => next.Blind text text'
  | dense _ _ next => next.Blind text text'
  | preallocate _ next => next.Blind text text'
  | render _ next => ∀ made, (next made).Blind text text'
  | remember _ _ _ next => ∀ made, (next made).Blind text text'
  | look next =>
    ∀ engine hash, next ⟨engine, text, hash⟩ = next ⟨engine, text', hash⟩ ∧ (next ⟨engine, text, hash⟩).Blind text text'
  | report _ next => next.Blind text text'

/-- A writing is blind to a state that does not change. -/
lemma Writing.Blind.refl (text : Bool) (w : Writing) : w.Blind text text := by
  induction w with
  | done => trivial
  | indicator _ _ ih => exact ih
  | weighted _ _ _ ih => exact ih
  | dense _ _ _ ih => exact ih
  | preallocate _ _ ih => exact ih
  | render _ _ ih => exact ih
  | remember _ _ _ _ ih => exact ih
  | look _ ih => exact fun _ _ => ⟨rfl, ih _⟩
  | report _ _ ih => exact ih

namespace Context

/-- Two contexts agree in everything that examples come from. -/
structure Alike (text text' : Bool) (c d : Context) : Prop where
  engine : c.engine = d.engine
  text_left : c.text = text
  text_right : d.text = text'
  dictifyAll : c.dictifyAll = d.dictifyAll
  memo : c.memo = d.memo
  builder : c.builder = d.builder
  hash : c.current.map OpenNamespace.hash = d.current.map OpenNamespace.hash
  natives : c.natives = d.natives
  multiLine : c.multiLine = d.multiLine

namespace Alike

variable {text text' : Bool} {c d : Context} (h : c.Alike text text' d)

include h

/-- The line is left out, so it does not even matter that the tokens are the same. -/
lemma addToken (token token' : String) : (c.addToken token).Alike text text' (d.addToken token') := by
  unfold Context.addToken
  split <;> split <;>
    exact ⟨h.engine, h.text_left, h.text_right, h.dictifyAll, h.memo, h.builder, h.hash, h.natives, h.multiLine⟩

/-- A feature goes into the example under construction of both. -/
lemma addHashed (hash : UInt64) (weight : Single) : (c.addHashed hash weight).Alike text text' (d.addHashed hash weight) :=
  ⟨h.engine, h.text_left, h.text_right, h.dictifyAll, h.memo, congrArg (Option.map _) h.builder, h.hash, h.natives,
    h.multiLine⟩

/-- Whether there is a warning is left out. -/
lemma narrow (name : String) (weight : Double) :
    (c.narrow name weight).1.Alike text text' (d.narrow name weight).1 := by
  unfold Context.narrow
  simp only
  split <;> split <;>
    exact ⟨h.engine, h.text_left, h.text_right, h.dictifyAll, h.memo, h.builder, h.hash, h.natives, h.multiLine⟩

/-- Namespaces are open in both or in none. -/
lemma current : (c.current = none ∧ d.current = none) ∨
    ∃ space space', c.current = some space ∧ d.current = some space' ∧ space.hash = space'.hash := by
  have hash := h.hash
  cases left : c.current with
  | none =>
    rw [left] at hash
    exact .inl ⟨rfl, Option.map_eq_none_iff.1 hash.symm⟩
  | some space =>
    rw [left] at hash
    obtain ⟨space', right, same⟩ := Option.map_eq_some_iff.1 hash.symm
    exact .inr ⟨space, space', rfl, right, same.symm⟩

/-- A feature by its name alone is hashed in the open namespace, which has one hash in both. -/
lemma addIndicator (name : String) : (c.addIndicator name).Alike text text' (d.addIndicator name) := by
  unfold Context.addIndicator
  rcases h.current with ⟨left, right⟩ | ⟨space, space', left, right, same⟩
  · rwa [left, right]
  · simp only [left, right]
    rw [h.engine, same]
    exact (h.addHashed _ _).addToken _ _

/-- A weight is narrowed to the same single in both, so it is kept in both or dropped in both. -/
lemma addWeighted (name : String) (weight : Double) :
    (c.addWeighted name weight).Alike text text' (d.addWeighted name weight) := by
  have narrowed := h.narrow name weight
  have weights : (c.narrow name weight).2 = (d.narrow name weight).2 := rfl
  unfold Context.addWeighted
  rcases h.current with ⟨left, right⟩ | ⟨space, space', left, right, same⟩
  · rwa [left, right]
  · simp only [left, right, weights]
    split
    · rw [narrowed.engine, same]
      exact (narrowed.addHashed _ _).addToken _ _
    · exact narrowed

/-- A feature by its offset, with a weight that is kept; the format of the number is left out. -/
lemma addIndex (space index : UInt64) (weight : Single) :
    (c.addIndex space index weight).Alike text text' (d.addIndex space index weight) := by
  unfold Context.addIndex
  rw [h.engine]
  exact (h.addHashed _ _).addToken _ _

/-- The elements of a dense vector come one by one, each under the next offset whether or not it is kept. -/
lemma addElements (space index : UInt64) (weights : List Double) :
    (c.addElements space index weights).Alike text text' (d.addElements space index weights) := by
  induction weights generalizing c d index with
  | nil => exact h
  | cons weight weights ih =>
    have narrowed := h.narrow "dense" weight
    have same : (c.narrow "dense" weight).2 = (d.narrow "dense" weight).2 := rfl
    unfold Context.addElements
    simp only [same]
    split
    · exact ih (narrowed.addIndex space index _) _
    · exact ih narrowed _

/-- A dense vector begins behind the anchor, if it has one. -/
lemma addDense (anchor : Bool) (weights : List Double) :
    (c.addDense anchor weights).Alike text text' (d.addDense anchor weights) := by
  unfold Context.addDense
  rcases h.current with ⟨left, right⟩ | ⟨space, space', left, right, same⟩
  · rwa [left, right]
  · simp only [left, right, same]
    split
    · exact (h.addIndex space'.hash 0 _).addElements space'.hash 1 weights
    · exact h.addElements space'.hash 0 weights

/-- Room for features leaves no trace. -/
lemma preallocate (additional : Nat) : (c.preallocate additional).Alike text text' (d.preallocate additional) :=
  ⟨h.engine, h.text_left, h.text_right, h.dictifyAll, h.memo, congrArg (Option.map _) h.builder, h.hash, h.natives,
    h.multiLine⟩

/-- What happens besides is left out. -/
lemma record (event : Event) : (c.record event).Alike text text' (d.record event) :=
  ⟨h.engine, h.text_left, h.text_right, h.dictifyAll, h.memo, h.builder, h.hash, h.natives, h.multiLine⟩

/-- Making a text is at most noted as something that happened besides. -/
lemma render (rendering : Rendering) : (c.render rendering).1.Alike text text' (d.render rendering).1 := by
  unfold Context.render
  cases rendering.counted with
  | none => exact h
  | some serial => exact h.record _

/-- The same texts are kept in both, so both take a kept one or both make it, and they get the same text. -/
lemma remember (feature : Feature) (site : Site) (rendering : Rendering) :
    (c.remember feature site rendering).1.Alike text text' (d.remember feature site rendering).1 ∧
      (c.remember feature site rendering).2 = (d.remember feature site rendering).2 := by
  have rendered := h.render rendering
  unfold Context.remember
  rw [h.dictifyAll, h.memo]
  split
  · split
    · exact ⟨h, rfl⟩
    · exact ⟨⟨rendered.engine, rendered.text_left, rendered.text_right, rendered.dictifyAll,
        congrArg (List.cons _) rendered.memo, rendered.builder, rendered.hash, rendered.natives, rendered.multiLine⟩, rfl⟩
  · exact ⟨rendered, rfl⟩

/-- A writing that the text form makes no difference to keeps contexts alike. -/
theorem run {w : Writing} (blind : w.Blind text text') : (c.run w).Alike text text' (d.run w) := by
  induction w generalizing c d with
  | done => exact h
  | indicator name next ih => exact ih (h.addIndicator name) blind
  | weighted name weight next ih => exact ih (h.addWeighted name weight) blind
  | dense anchor weights next ih => exact ih (h.addDense anchor weights) blind
  | preallocate additional next ih => exact ih (h.preallocate additional) blind
  | render rendering next ih => exact ih _ (h.render rendering) (blind _)
  | remember feature site rendering next ih =>
    obtain ⟨remembered, same⟩ := h.remember feature site rendering
    rw [Context.run, Context.run, same]
    exact ih _ remembered (blind _)
  | look next ih =>
    -- engine and open namespace are the same in both, and for the text form there is `blind`
    obtain ⟨same, onward⟩ := blind c.engine (c.current.map OpenNamespace.hash)
    rw [Context.run, Context.run, view, view, ← h.engine, ← h.hash, h.text_left, h.text_right, ← same]
    exact ih _ h onward
  | report event next ih => exact ih (h.record event) blind

/-- A namespace is opened in both by one hash; the mark of the line before it is left out. -/
lemma beginNamespace (space : Namespace) : (c.beginNamespace space).Alike text text' (d.beginNamespace space) := by
  unfold Context.beginNamespace
  rw [h.engine]
  exact ⟨rfl, h.text_left, h.text_right, h.dictifyAll, h.memo, congrArg (Option.map _) h.builder, rfl, h.natives, h.multiLine⟩

/-- A namespace is closed in both, and dropped in both if it has no features. -/
lemma endNamespace : c.endNamespace.Alike text text' d.endNamespace := by
  unfold Context.endNamespace
  rcases h.current with ⟨left, right⟩ | ⟨space, space', left, right, -⟩
  · rwa [left, right]
  · simp only [left, right]
    exact ⟨h.engine, h.text_left, h.text_right, h.dictifyAll, h.memo, by rw [h.builder], rfl, h.natives, h.multiLine⟩

/-- A line that is ended gives both the same finished example. -/
lemma endLine : c.endLine.Alike text text' d.endLine := by
  have ended := h.endNamespace
  unfold Context.endLine
  simp only [ended.builder]
  split
  · exact ended
  · exact ⟨ended.engine, ended.text_left, ended.text_right, ended.dictifyAll, ended.memo, rfl, ended.hash,
      congrArg (· ++ _) ended.natives, ended.multiLine⟩

/-- A line that is started begins with a new example of the one engine. -/
lemma startLine : c.startLine.Alike text text' d.startLine := by
  have started {c d : Context} (h : c.Alike text text' d) :
      ({ c with builder := some (.ofExample c.engine.newExample), line := "" } : Context).Alike text text'
        { d with builder := some (.ofExample d.engine.newExample), line := "" } :=
    ⟨h.engine, h.text_left, h.text_right, h.dictifyAll, h.memo, by rw [h.engine], h.hash, h.natives, h.multiLine⟩
  unfold Context.startLine
  rw [h.builder]
  split
  · exact started h.endLine
  · exact started h

/-- A label is accepted in both or refused in both for one reason. -/
lemma writeLabel (label : String) :
    (∃ c' d', c.writeLabel label = .ok c' ∧ d.writeLabel label = .ok d' ∧ c'.Alike text text' d') ∨
      ∃ failure, c.writeLabel label = .error failure ∧ d.writeLabel label = .error failure := by
  unfold Context.writeLabel
  rw [h.engine]
  cases d.engine.readLabel label.toList with
  | error failure => exact .inr ⟨failure, rfl, rfl⟩
  | ok parsed =>
    exact .inl ⟨_, _, rfl, rfl, rfl, h.text_left, h.text_right, h.dictifyAll, h.memo, congrArg (Option.map _) h.builder,
      h.hash, h.natives, h.multiLine⟩

/-- In the end both give the same examples, and the same mark of several lines. -/
lemma finish : c.finish.lines = d.finish.lines ∧ c.finish.multiLine = d.finish.multiLine :=
  ⟨h.endLine.natives, h.endLine.multiLine⟩

end Alike

end Context

end FeatureLines
