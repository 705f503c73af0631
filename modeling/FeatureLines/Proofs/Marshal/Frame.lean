import FeatureLines.Proofs.Marshal.Invariant

/-!
# What a writing leaves alone

A writing may add features to the open namespace and tokens to the line, keep texts and report events. All else stays:
the engine, the lines that are finished, the namespaces that are closed, and which one is open (`Context.Frame.run`). So
what a line has for namespaces is up to how they are opened and closed, and not to marshallers.
-/

namespace FeatureLines

open Number

/-- A builder but for the features of the open namespace. -/
def Builder.outline (b : Builder) : Builder :=
  { b with current := b.current.map fun n => { n with features := [] } }

/-- A feature does not show in the outline. -/
@[simp] lemma Builder.outline_addFeature (b : Builder) (hash : UInt64) (weight : Single) :
    (b.addFeature hash weight).outline = b.outline := by
  unfold addFeature outline
  cases b.current <;> rfl

namespace Context

/-- From one context to another, nothing changes but features, tokens, kept texts and events. -/
structure Frame (c d : Context) : Prop where
  engine : d.engine = c.engine
  builder : d.builder.map Builder.outline = c.builder.map Builder.outline
  current : d.current = c.current
  natives : d.natives = c.natives

namespace Frame

lemma refl (c : Context) : c.Frame c := ⟨rfl, rfl, rfl, rfl⟩

lemma trans {c d e : Context} (h : c.Frame d) (h' : d.Frame e) : c.Frame e :=
  ⟨h'.engine.trans h.engine, h'.builder.trans h.builder, h'.current.trans h.current, h'.natives.trans h.natives⟩

lemma addHashed (c : Context) (hash : UInt64) (weight : Single) : c.Frame (c.addHashed hash weight) := by
  refine ⟨rfl, ?_, rfl, rfl⟩
  unfold Context.addHashed
  cases c.builder with
  | none => rfl
  | some b => simp

lemma preallocate (c : Context) (additional : Nat) : c.Frame (c.preallocate additional) := by
  refine ⟨rfl, ?_, rfl, rfl⟩
  unfold Context.preallocate
  cases c.builder <;> rfl

/-- All that a writing can do stays within the frame. -/
lemma invariant (c : Context) : Invariant c.Frame where
  feature h hash weight _ := h.trans (addHashed _ hash weight)
  room h additional := h.trans (preallocate _ additional)
  beside h _ _ _ := ⟨h.engine, h.builder, h.current, h.natives⟩

/-- Whatever a writing does, it does not go beyond the open namespace. -/
theorem run (c : Context) (w : Writing) : c.Frame (c.run w) := (invariant c).run (.refl c) w

end Frame

/-! ## Opening and closing -/

variable {c : Context} {b : Builder}

/-- A namespace that is opened has no features yet. -/
lemma builder_beginNamespace (builder : c.builder = some b) (closed : b.current = none) (space : Namespace) :
    (c.beginNamespace space).builder =
      some { b with current := some ⟨space.index, c.engine.hashSpace space.fullName, []⟩ } := by
  have same : b.closeNamespace.1 = b := by
    unfold Builder.closeNamespace
    rw [closed]
  rw [beginNamespace, builder]
  simp only [Option.map_some, Builder.openNamespace, same]

/-- A namespace that is closed is kept if it has features. -/
lemma builder_endNamespace {opened : OpenNamespace} {n : HashedNamespace} (current : c.current = some opened)
    (builder : c.builder = some { b with current := some n }) :
    c.endNamespace.builder =
      some { b with closed := b.closed ++ (if n.features.isEmpty then [] else [n]), current := none } := by
  unfold endNamespace
  rw [current, builder]
  simp only [Option.map_some, Builder.closeNamespace]
  split <;> simp

/-- A line that is ended without an open namespace stands behind the others. -/
lemma endLine_eq (current : c.current = none) (builder : c.builder = some b) (closed : b.current = none) :
    c.endLine =
      { c with
        builder := none
        natives := c.natives ++ [⟨b.label, b.closed, b.leased⟩]
        texts := if c.text then c.texts ++ [c.line] else c.texts
        line := if c.text then "" else c.line } := by
  have finish : b.finish = ⟨b.label, b.closed, b.leased⟩ := by
    unfold Builder.finish Builder.closeNamespace
    rw [closed]
  have ended : c.endNamespace = c := by
    unfold endNamespace
    rw [current]
  unfold endLine
  simp only [ended, builder, finish]

end Context

end FeatureLines
