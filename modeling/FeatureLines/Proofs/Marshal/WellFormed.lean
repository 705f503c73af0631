import FeatureLines.Proofs.Example.WellFormed
import FeatureLines.Proofs.Marshal.Invariant

/-!
# Contexts with well-formed examples

The three ways to write features, with a weight, without one and as a dense vector, leave out what does not count, after
the weight was narrowed. So whatever a marshaller writes, in any order, keeps the line under construction and those that
are finished well formed (`Context.WellFormed.run`), and so do the operations around namespaces and lines.
-/

namespace FeatureLines

open Number

namespace Context

/-- The line under construction and those that are finished are well formed. -/
structure WellFormed (engine : Engine) (names : String → Prop) (c : Context) : Prop where
  engine_eq : c.engine = engine
  builder : ∀ b, c.builder = some b → b.WellFormed engine names
  natives : ∀ e ∈ c.natives, e.WellFormed engine names

/-- The weights that are kept are those that count. -/
lemma isKept_iff {weight : Single} : isKept weight = true ↔ weight.Counts := by
  simp [isKept, Binary.Counts]

variable {engine : Engine} {names : String → Prop} {c d : Context}

namespace WellFormed

/-- What is well formed does not depend on the text form. -/
lemma of_eq (h : c.WellFormed engine names) (engine_eq : d.engine = c.engine) (builder : d.builder = c.builder)
    (natives : d.natives = c.natives) : d.WellFormed engine names :=
  ⟨engine_eq.trans h.engine_eq, builder ▸ h.builder, natives ▸ h.natives⟩

/-- In a new context there is no example yet. -/
lemma new (engine : Engine) (names : String → Prop) (options : Options) (default : FloatFormat) :
    (Context.new engine options default).WellFormed engine names :=
  ⟨rfl, fun _ built => (nomatch built), fun _ mem => nomatch mem⟩

/-- A feature whose weight counts is added to the example under construction. -/
lemma addHashed (h : c.WellFormed engine names) (hash : UInt64) {weight : Single} (counts : weight.Counts) :
    (c.addHashed hash weight).WellFormed engine names := by
  refine ⟨h.engine_eq, fun b built => ?_, h.natives⟩
  obtain ⟨before, builder, rfl⟩ := Option.map_eq_some_iff.1 built
  exact (h.builder before builder).addFeature hash counts

/-- Room for features changes no example. -/
lemma preallocate (h : c.WellFormed engine names) (additional : Nat) :
    (c.preallocate additional).WellFormed engine names := by
  refine h.of_eq rfl ?_ rfl
  unfold Context.preallocate
  cases c.builder <;> rfl

/-- What the steps of a marshaller do keeps examples well formed. -/
lemma invariant : Invariant (WellFormed engine names) where
  feature h hash _ kept := h.addHashed hash (isKept_iff.1 kept)
  room h additional := h.preallocate additional
  beside h _ _ _ := h.of_eq rfl rfl rfl

/-- Whatever a marshaller writes, the example stays well formed. -/
theorem run (h : c.WellFormed engine names) (w : Writing) : (c.run w).WellFormed engine names := invariant.run h w

/-! ## Namespaces and lines -/

/-- A namespace has the first character of the name that is hashed for it. -/
lemma beginNamespace (h : c.WellFormed engine names) {space : Namespace} (known : names space.fullName) :
    (c.beginNamespace space).WellFormed engine names := by
  refine ⟨h.engine_eq, fun b built => ?_, h.natives⟩
  obtain ⟨before, builder, rfl⟩ := Option.map_eq_some_iff.1 built
  rw [h.engine_eq]
  exact (h.builder before builder).openNamespace known

/-- A namespace that is closed has features, as it is dropped otherwise. -/
lemma endNamespace (h : c.WellFormed engine names) : c.endNamespace.WellFormed engine names := by
  unfold Context.endNamespace
  split
  · exact h
  · refine ⟨h.engine_eq, fun b built => ?_, h.natives⟩
    obtain ⟨closed, found, rfl⟩ := Option.map_eq_some_iff.1 built
    obtain ⟨before, builder, rfl⟩ := Option.map_eq_some_iff.1 found
    exact (h.builder before builder).closeNamespace

/-- The example of an ended line is well formed like those before it. -/
lemma endLine (h : c.WellFormed engine names) : c.endLine.WellFormed engine names := by
  have ended := h.endNamespace
  unfold Context.endLine
  simp only
  split
  · exact ended
  · rename_i b builder
    refine ⟨ended.engine_eq, fun _ built => (nomatch built), fun e mem => ?_⟩
    rcases List.mem_append.1 mem with old | new
    · exact ended.natives e old
    · rw [List.mem_singleton.1 new]
      exact (ended.builder b builder).finish

/-- A new line begins with an example without namespaces. -/
lemma startLine (h : c.WellFormed engine names) : c.startLine.WellFormed engine names := by
  have ended : (if c.builder.isSome then c.endLine else c).WellFormed engine names := by
    split
    · exact h.endLine
    · exact h
  refine ⟨ended.engine_eq, fun b built => ?_, ended.natives⟩
  cases built
  rw [ended.engine_eq]
  exact .start engine names

/-- A label is no part of what is asked of an example. -/
lemma writeLabel (h : c.WellFormed engine names) {text : String} (ok : c.writeLabel text = .ok d) :
    d.WellFormed engine names := by
  obtain ⟨label, -, rfl⟩ := Except.map_eq_ok.1 ok
  refine ⟨h.engine_eq, fun b built => ?_, h.natives⟩
  obtain ⟨before, builder, rfl⟩ := Option.map_eq_some_iff.1 built
  exact (h.builder before builder).setLabel label

/-- In the end every example is well formed. -/
lemma finish (h : c.WellFormed engine names) : ∀ e ∈ c.finish.lines, e.WellFormed engine names := h.endLine.natives

end WellFormed

end Context

end FeatureLines
