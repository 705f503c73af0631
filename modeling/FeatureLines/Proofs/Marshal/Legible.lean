import FeatureLines.Marshal.Context
import FeatureLines.Proofs.Marshal.BuiltIn

/-!
# Legible writings

A writing is legible in a context when the names that it writes there can stand in a text line. The name of a weighted
feature may have no blank and no bar; that of an indicator may have no colon either and may not be empty, since it is a
word of its own. Ordinary writings for a feature with a name are legible in every context.
-/

namespace FeatureLines.Context

/-- The names that a writing writes in a context can stand in a text line. -/
def Legible (c : Context) : Writing → Prop
  | .done => True
  | .indicator name next => IsTokenName name ∧ (c.addIndicator name).Legible next
  | .weighted name weight next => IsWeightName name ∧ (c.addWeighted name weight).Legible next
  | .dense anchor weights next => (c.addDense anchor weights).Legible next
  | .preallocate additional next => (c.preallocate additional).Legible next
  | .render rendering next => (c.render rendering).1.Legible (next (c.render rendering).2)
  | .remember feature site rendering next =>
    (c.remember feature site rendering).1.Legible (next (c.remember feature site rendering).2)
  | .look next => c.Legible (next c.view)
  | .report event next => (c.record event).Legible next

/-- An ordinary writing for a feature with a name is legible in every context. -/
theorem legible_of_ordinary {feature : Feature} (named : feature.IsNamed) {w : Writing} (ordinary : w.Ordinary feature)
    (c : Context) : c.Legible w := by
  induction w generalizing c with
  | done => trivial
  | indicator name next ih => exact ⟨ordinary.1 named, ih ordinary.2 _⟩
  | weighted name weight next ih => exact ⟨ordinary.1 named, ih ordinary.2 _⟩
  | dense anchor weights next ih => exact ih ordinary _
  | preallocate additional next ih => exact ih ordinary _
  | render rendering next ih => exact ih _ (ordinary _) _
  | remember kept site rendering next ih => exact ih _ (ordinary.2 _) _
  | look next => exact ordinary.elim
  | report event next ih => exact ih ordinary _

end FeatureLines.Context
