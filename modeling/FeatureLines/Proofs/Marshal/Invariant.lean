import Mathlib.Tactic.Lemma
import FeatureLines.Marshal.Context

/-!
# Invariants of writings

The operations of a marshaller are made of a few steps: they add a feature that is kept, make room for features, and write
to what stands beside the example, which is the text line, the texts that are kept and the events. What each of these steps
preserves is preserved by whatever a marshaller writes (`Context.Invariant.run`).
-/

namespace FeatureLines

open Number

namespace Context

/-- A property of contexts that the steps of a marshaller preserve. -/
structure Invariant (P : Context → Prop) : Prop where
  feature : ∀ {c : Context}, P c → ∀ (hash : UInt64) {weight : Single}, isKept weight = true → P (c.addHashed hash weight)
  room : ∀ {c : Context}, P c → ∀ additional : Nat, P (c.preallocate additional)
  beside : ∀ {c : Context}, P c → ∀ (line : String) (memo : List (Site × String)) (events : List Event),
    P { c with line, memo, events }

namespace Invariant

variable {P : Context → Prop} {c : Context}

/-- Events stand beside the example. -/
lemma record (inv : Invariant P) (h : P c) (event : Event) : P (c.record event) :=
  inv.beside h c.line c.memo (c.events ++ [event])

/-- The line stands beside the example. -/
lemma addToken (inv : Invariant P) (h : P c) (token : String) : P (c.addToken token) := by
  unfold Context.addToken
  split
  · exact inv.beside h _ c.memo c.events
  · exact h

/-- A weight that is narrowed may be warned of, which is an event. -/
lemma narrow (inv : Invariant P) (h : P c) (name : String) (weight : Double) : P (c.narrow name weight).1 := by
  unfold Context.narrow
  simp only
  split
  · exact inv.record h _
  · exact h

/-- A feature by its name alone has the weight one, which is kept. -/
lemma addIndicator (inv : Invariant P) (h : P c) (name : String) : P (c.addIndicator name) := by
  unfold Context.addIndicator
  split
  · exact h
  · exact inv.addToken (inv.feature h _ (by rfl)) name

/-- A feature with a weight is added if the weight is kept, and otherwise the property has nothing to bear. -/
lemma addWeighted (inv : Invariant P) (h : P c) (name : String) (weight : Double) : P (c.addWeighted name weight) := by
  have narrowed := inv.narrow h name weight
  unfold Context.addWeighted
  split
  · exact h
  · simp only
    split
    · rename_i kept
      exact inv.addToken (inv.feature narrowed _ kept) _
    · exact narrowed

/-- An element of a dense vector is a feature whose weight is kept. -/
lemma addIndex (inv : Invariant P) (h : P c) (space index : UInt64) {weight : Single} (kept : isKept weight = true) :
    P (c.addIndex space index weight) := inv.addToken (inv.feature h _ kept) _

/-- The elements of a dense vector are added one by one, those whose weights are kept. -/
lemma addElements (inv : Invariant P) (h : P c) (space index : UInt64) (weights : List Double) :
    P (c.addElements space index weights) := by
  induction weights generalizing c index with
  | nil => exact h
  | cons weight weights ih =>
    have narrowed := inv.narrow h "dense" weight
    unfold Context.addElements
    simp only
    split
    · rename_i kept
      exact ih (inv.addIndex narrowed space index kept) (index + 1)
    · exact ih narrowed (index + 1)

/-- The anchor of a dense vector has the weight one as well. -/
lemma addDense (inv : Invariant P) (h : P c) (anchor : Bool) (weights : List Double) : P (c.addDense anchor weights) := by
  unfold Context.addDense
  split
  · exact h
  · split
    · exact inv.addElements (inv.addIndex h _ 0 (by rfl)) _ 1 weights
    · exact inv.addElements h _ 0 weights

/-- A text that is made may be counted, which is an event. -/
lemma render (inv : Invariant P) (h : P c) (rendering : Rendering) : P (c.render rendering).1 := by
  unfold Context.render
  split
  · exact inv.record h _
  · exact h

/-- The texts that are kept stand beside the example. -/
lemma remember (inv : Invariant P) (h : P c) (feature : Feature) (site : Site) (rendering : Rendering) :
    P (c.remember feature site rendering).1 := by
  have rendered := inv.render h rendering
  unfold Context.remember
  split
  · split
    · exact h
    · exact inv.beside rendered (c.render rendering).1.line _ (c.render rendering).1.events
  · exact rendered

/-- Whatever a marshaller writes preserves what its steps preserve. -/
theorem run (inv : Invariant P) (h : P c) (w : Writing) : P (c.run w) := by
  induction w generalizing c with
  | done => exact h
  | indicator name next ih => exact ih (inv.addIndicator h name)
  | weighted name weight next ih => exact ih (inv.addWeighted h name weight)
  | dense anchor weights next ih => exact ih (inv.addDense h anchor weights)
  | preallocate additional next ih => exact ih (inv.room h additional)
  | render rendering next ih => exact ih _ (inv.render h rendering)
  | remember feature site rendering next ih => exact ih _ (inv.remember h feature site rendering)
  | look next ih => exact ih _ h
  | report event next ih => exact ih (inv.record h event)

end Invariant

end Context

end FeatureLines
