import Mathlib.Tactic.Lemma
import FeatureLines.Marshal.Context
import FeatureLines.Proofs.Results

/-!
# Contexts with lines in front

No operation looks at the lines that are finished. So what is written to a context that has lines already is what would
be written without them, behind those lines: a context that resumes another one, with some lines in front of the other's,
does so after every operation (`Context.Resumes.run` for writings). The same goes for the warnings, for what happened
besides, and for the mark of several lines, in which the two contexts may differ as they like.
-/

namespace FeatureLines

open Number

namespace Context

/-- The first context is the second one with finished lines in front. Warnings, events and the mark of several lines are
left out. -/
def Resumes (natives : List Example) (texts : List String) (c d : Context) : Prop :=
  ∃ precisionWarnings multiLine events,
    c = { d with natives := natives ++ d.natives, texts := texts ++ d.texts, precisionWarnings, multiLine, events }

namespace Resumes

variable {natives : List Example} {texts : List String} {c d : Context} (h : c.Resumes natives texts d)

include h

/-- Lines in front do not change the engine. -/
lemma engine : c.engine = d.engine := by
  obtain ⟨_, _, _, rfl⟩ := h
  rfl

/-- Lines in front do not change whether there is a text form. -/
lemma text : c.text = d.text := by
  obtain ⟨_, _, _, rfl⟩ := h
  rfl

/-- Weights are written in the same format in both. -/
lemma floatFormat : c.floatFormat = d.floatFormat := by
  obtain ⟨_, _, _, rfl⟩ := h
  rfl

/-- The same namespace is open in both, or none is. -/
lemma current : c.current = d.current := by
  obtain ⟨_, _, _, rfl⟩ := h
  rfl

/-- The same example is under construction in both. -/
lemma builder : c.builder = d.builder := by
  obtain ⟨_, _, _, rfl⟩ := h
  rfl

/-- The finished examples of the first are those in front and then those of the second. -/
lemma natives_eq : c.natives = natives ++ d.natives := by
  obtain ⟨_, _, _, rfl⟩ := h
  rfl

/-- The finished texts of the first are those in front and then those of the second. -/
lemma texts_eq : c.texts = texts ++ d.texts := by
  obtain ⟨_, _, _, rfl⟩ := h
  rfl

/-- A token ends up in the line that is written, behind the finished ones, or nowhere in either. -/
lemma addToken (token : String) : (c.addToken token).Resumes natives texts (d.addToken token) := by
  unfold Context.addToken
  rw [h.text]
  cases d.text with
  | false => exact h
  | true =>
    obtain ⟨_, _, _, rfl⟩ := h
    exact ⟨_, _, _, rfl⟩

/-- A feature goes into the example under construction, which is the same one in both. -/
lemma addHashed (hash : UInt64) (weight : Single) :
    (c.addHashed hash weight).Resumes natives texts (d.addHashed hash weight) := by
  obtain ⟨_, _, _, rfl⟩ := h
  exact ⟨_, _, _, rfl⟩

/-- What happens besides is left out of the comparison. -/
lemma record (event : Event) : (c.record event).Resumes natives texts (d.record event) := by
  obtain ⟨_, _, _, rfl⟩ := h
  exact ⟨_, _, _, rfl⟩

/-- A warning may come in one context and not in the other: warnings are left out too. -/
lemma narrow (name : String) (weight : Double) :
    (c.narrow name weight).1.Resumes natives texts (d.narrow name weight).1 := by
  obtain ⟨_, _, _, rfl⟩ := h
  unfold Context.narrow
  simp only
  split <;> split <;> exact ⟨_, _, _, rfl⟩

/-- A feature by its name alone is hashed in the open namespace, which both have or neither has. -/
lemma addIndicator (name : String) : (c.addIndicator name).Resumes natives texts (d.addIndicator name) := by
  unfold Context.addIndicator
  rw [h.current, h.engine]
  cases d.current with
  | none => exact h
  | some space => exact (h.addHashed _ _).addToken _

/-- A weight is narrowed to the same single in both, so it is kept in both or dropped in both. -/
lemma addWeighted (name : String) (weight : Double) :
    (c.addWeighted name weight).Resumes natives texts (d.addWeighted name weight) := by
  have narrowed := h.narrow name weight
  have weights : (c.narrow name weight).2 = (d.narrow name weight).2 := rfl
  unfold Context.addWeighted
  rw [h.current]
  cases d.current with
  | none => exact h
  | some space =>
    simp only [weights, narrowed.engine, narrowed.floatFormat]
    split
    · exact (narrowed.addHashed _ _).addToken _
    · exact narrowed

/-- A feature by its offset, with a weight that is kept. -/
lemma addIndex (space index : UInt64) (weight : Single) :
    (c.addIndex space index weight).Resumes natives texts (d.addIndex space index weight) := by
  unfold Context.addIndex
  rw [h.engine, h.floatFormat]
  exact (h.addHashed _ _).addToken _

/-- The elements of a dense vector come one by one, each under the next offset whether or not it is kept. -/
lemma addElements (space index : UInt64) (weights : List Double) :
    (c.addElements space index weights).Resumes natives texts (d.addElements space index weights) := by
  induction weights generalizing c d index with
  | nil => exact h
  | cons weight weights ih =>
    have narrowed := h.narrow "dense" weight
    have same : (c.narrow "dense" weight).2 = (d.narrow "dense" weight).2 := rfl
    unfold Context.addElements
    simp only [same]
    split
    · exact ih (narrowed.addIndex space index _) _
    · exact ih narrowed _

/-- A dense vector begins behind the anchor, if it has one. -/
lemma addDense (anchor : Bool) (weights : List Double) :
    (c.addDense anchor weights).Resumes natives texts (d.addDense anchor weights) := by
  unfold Context.addDense
  rw [h.current]
  cases d.current with
  | none => exact h
  | some space =>
    cases anchor with
    | true => exact (h.addIndex space.hash 0 _).addElements space.hash 1 weights
    | false => exact h.addElements space.hash 0 weights

/-- Room for features leaves no trace. -/
lemma preallocate (additional : Nat) : (c.preallocate additional).Resumes natives texts (d.preallocate additional) := by
  obtain ⟨_, _, _, rfl⟩ := h
  exact ⟨_, _, _, rfl⟩

/-- Making a text is at most noted as something that happened besides. -/
lemma render (rendering : Rendering) : (c.render rendering).1.Resumes natives texts (d.render rendering).1 := by
  unfold Context.render
  cases rendering.counted with
  | none => exact h
  | some serial => exact h.record _

/-- The same texts are kept in both, so both take a kept one or both make it, and they get the same text. -/
lemma remember (feature : Feature) (site : Site) (rendering : Rendering) :
    (c.remember feature site rendering).1.Resumes natives texts (d.remember feature site rendering).1 ∧
      (c.remember feature site rendering).2 = (d.remember feature site rendering).2 := by
  have rendered := h.render rendering
  have settings : c.dictifyAll = d.dictifyAll ∧ c.memo = d.memo := by
    obtain ⟨_, _, _, rfl⟩ := h
    exact ⟨rfl, rfl⟩
  unfold Context.remember
  rw [settings.1, settings.2]
  split
  · split
    · exact ⟨h, rfl⟩
    · obtain ⟨warnings, multiLine, events, eq⟩ := rendered
      simp only [eq]
      exact ⟨⟨warnings, multiLine, events, rfl⟩, rfl⟩
  · exact ⟨rendered, rfl⟩

/-- A writing does the same to both. -/
theorem run (w : Writing) : (c.run w).Resumes natives texts (d.run w) := by
  induction w generalizing c d with
  | done => exact h
  | indicator name next ih => exact ih (h.addIndicator name)
  | weighted name weight next ih => exact ih (h.addWeighted name weight)
  | dense anchor weights next ih => exact ih (h.addDense anchor weights)
  | preallocate additional next ih => exact ih (h.preallocate additional)
  | render rendering next ih => exact ih _ (h.render rendering)
  | remember feature site rendering next ih =>
    obtain ⟨remembered, same⟩ := h.remember feature site rendering
    rw [Context.run, Context.run, same]
    exact ih _ remembered
  | look next ih =>
    have seen : c.view = d.view := by
      obtain ⟨_, _, _, rfl⟩ := h
      rfl
    rw [Context.run, Context.run, seen]
    exact ih _ h
  | report event next ih => exact ih (h.record event)

/-- A namespace is opened in both, and its header is written to both lines. -/
lemma beginNamespace (space : Namespace) :
    (c.beginNamespace space).Resumes natives texts (d.beginNamespace space) := by
  obtain ⟨_, _, _, rfl⟩ := h
  exact ⟨_, _, _, rfl⟩

/-- A namespace is closed in both, and what is taken back of the line is the same, as both remember one mark. -/
lemma endNamespace : c.endNamespace.Resumes natives texts d.endNamespace := by
  unfold Context.endNamespace
  rw [h.current]
  cases d.current with
  | none => exact h
  | some space =>
    obtain ⟨_, _, _, rfl⟩ := h
    exact ⟨_, _, _, rfl⟩

/-- A line that is ended goes behind the finished ones of both. -/
lemma endLine : c.endLine.Resumes natives texts d.endLine := by
  have ended := h.endNamespace
  unfold Context.endLine
  simp only [ended.builder]
  cases d.endNamespace.builder with
  | none => exact ended
  | some b =>
    obtain ⟨_, _, _, eq⟩ := ended
    simp only [eq, List.append_assoc]
    cases d.endNamespace.text <;> exact ⟨_, _, _, rfl⟩

/-- A line that is started in both is new in both, after the one before has been ended. -/
lemma startLine : c.startLine.Resumes natives texts d.startLine := by
  have started {c d : Context} (h : c.Resumes natives texts d) :
      ({ c with builder := some (.ofExample c.engine.newExample), line := "" } : Context).Resumes natives texts
        { d with builder := some (.ofExample d.engine.newExample), line := "" } := by
    obtain ⟨_, _, _, rfl⟩ := h
    exact ⟨_, _, _, rfl⟩
  unfold Context.startLine
  rw [h.builder]
  split
  · exact started h.endLine
  · exact started h

/-- A label is accepted in both or refused in both for one reason. -/
lemma writeLabel (label : String) :
    (∃ c' d', c.writeLabel label = .ok c' ∧ d.writeLabel label = .ok d' ∧ c'.Resumes natives texts d') ∨
      ∃ failure, c.writeLabel label = .error failure ∧ d.writeLabel label = .error failure := by
  obtain ⟨_, _, _, rfl⟩ := h
  unfold Context.writeLabel
  simp only
  cases d.engine.readLabel label.toList with
  | error failure => exact .inr ⟨failure, rfl, rfl⟩
  | ok parsed => exact .inl ⟨_, _, rfl, rfl, _, _, _, rfl⟩

end Resumes

end Context

end FeatureLines
