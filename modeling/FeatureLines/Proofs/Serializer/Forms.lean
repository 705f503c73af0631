import FeatureLines.Proofs.Marshal.Alike
import FeatureLines.Proofs.Serializer.Rows

/-!
# Forms of one example

The examples that a serialization builds do not depend on the forms in which they are given: rows that are written to two
contexts that build alike are written or refused alike (`emitRows_alike`), and so two serializations that differ in the
text form, the format of weights and the warnings build the same examples or fail with the same cause
(`Plan.serialize_native`). Without the text form the whole output is the same (`Plan.serialize_default`).
-/

namespace FeatureLines

def Output.native (o : Output) : List Example × Bool := (o.lines, o.multiLine)

/-- The text form makes no difference to what a step writes. -/
def Step.Blind (text text' : Bool) (space : Namespace) (s : Step) : Prop :=
  ∀ cell, (s.handle.write space s.descriptor.feature cell).Blind text text'

section

variable {text text' : Bool} {c d : Context}

/-- Contexts that build alike do so through all that is written around the values. -/
lemma Context.Alike.lockstep (text text' : Bool) : Context.Lockstep (Context.Alike text text') where
  beginNamespace h := h.beginNamespace
  preallocate h := h.preallocate
  endNamespace h := h.endNamespace
  startLine h := h.startLine
  writeLabel h := h.writeLabel
  endLine h := h.endLine

/-- A step that does not ask for the form of the output keeps contexts alike. -/
lemma Step.emit_alike {space : Namespace} {s : Step} (blind : s.Blind text text' space) (root : Record)
    (h : c.Alike text text' d) : (s.emit space root c).Alike text text' (s.emit space root d) := by
  unfold emit
  cases s.descriptor.value? root with
  | some cell => exact h.run (blind cell)
  | none => exact h

/-- A block of steps that do not ask for the form keeps contexts alike. -/
lemma Block.lockstep_of_blind {b : Block} (blind : ∀ s ∈ b.steps, s.Blind text text' b.runtime) (root : Record) :
    b.Lockstep (Context.Alike text text') root b :=
  .same fun _ mem _ _ h => Step.emit_alike (blind _ mem) root h

/-- A row of steps that do not ask for the form keeps contexts alike. -/
lemma Row.lockstep_of_blind {row : Row} (blind : ∀ b ∈ row.plan.blocks, ∀ s ∈ b.steps, s.Blind text text' b.runtime) :
    row.Lockstep (Context.Alike text text') row :=
  .same fun _ mem => Block.lockstep_of_blind (blind _ mem) row.root

/-- Rows are written to both contexts up to the same row. -/
theorem emitRows_alike (h : c.Alike text text' d) (rows : List Row)
    (blind : ∀ row ∈ rows, ∀ b ∈ row.plan.blocks, ∀ s ∈ b.steps, s.Blind text text' b.runtime) :
    (emitRows c rows).context.Alike text text' (emitRows d rows).context ∧
      (emitRows c rows).failure = (emitRows d rows).failure :=
  (Context.Alike.lockstep text text').emitRows (List.forall₂_same.2 fun _ mem => Row.lockstep_of_blind (blind _ mem)) h

end

namespace Plan

def ofKind (p : Plan) (kind : OutputKind) : Plan := { p with kind }

variable {kind kind' : OutputKind} {options options' : Options} {default default' : FloatFormat}

/-- Serializations that differ in nothing but forms, formats and warnings build the same examples or fail alike. -/
theorem serialize_native (p : Plan) (engine : Engine) (dictify : options.dictify = options'.dictify)
    (blind : ∀ b ∈ p.blocks, ∀ s ∈ b.steps,
      s.Blind (decide (kind = .nativeAndText)) (decide (kind' = .nativeAndText)) b.runtime)
    (root : Record) (target : LabelTarget) :
    ((p.ofKind kind).serialize engine options default root target).result.map Output.native =
      ((p.ofKind kind').serialize engine options' default' root target).result.map Output.native := by
  have start : ((p.ofKind kind).start engine options default).Alike (decide (kind = .nativeAndText))
      (decide (kind' = .nativeAndText)) ((p.ofKind kind').start engine options' default') :=
    ⟨rfl, rfl, rfl, dictify, rfl, rfl, rfl, rfl, rfl⟩
  obtain ⟨alike, same⟩ := emitRows_alike start (p.rows root target)
    fun row mem b block => blind b (mem_blocks_of_mem_rows mem block)
  obtain ⟨lines, multiLine⟩ := alike.finish
  have refused (k : OutputKind) : (p.ofKind k).misfit? root target = p.misfit? root target := rfl
  have rows (k : OutputKind) : (p.ofKind k).rows root target = p.rows root target := rfl
  rw [serialize_result, serialize_result, refused, refused, rows, rows, same]
  split
  · rfl
  · exact congrArg Except.ok (Prod.ext lines multiLine)

variable {p : Plan} {engine : Engine} {root : Record} {target : LabelTarget}

/-- The native lines do not depend on the float format. -/
lemma serialize_native_default (p : Plan) (engine : Engine) (options : Options) (default default' : FloatFormat)
    (root : Record) (target : LabelTarget) :
    (p.serialize engine options default root target).result.map Output.native =
      (p.serialize engine options default' root target).result.map Output.native :=
  p.serialize_native engine rfl (fun _ _ _ _ _ => Writing.Blind.refl _ _) root target

/-- A plan for native output gives no text. -/
lemma text_of_native (native : p.kind = .native) {o : Output}
    (ok : (p.serialize engine options default root target).result = .ok o) : o.text = none := by
  have start : (p.start engine options default).Alike false false (p.start engine options default) :=
    have text : (p.start engine options default).text = false := by rw [Plan.start, native]; rfl
    ⟨rfl, text, text, rfl, rfl, rfl, rfl, rfl, rfl⟩
  obtain ⟨-, rfl⟩ := serialize_eq_ok ok
  have alike := (emitRows_alike start (p.rows root target) fun _ _ _ _ _ _ _ => Writing.Blind.refl _ _).1
  have off := alike.endLine.text_left
  unfold Context.finish
  simp only [off]
  rfl

/-- The format in force makes no difference when the options name one or there is no text form. -/
theorem serialize_default (fixed : options.floatFormat.isSome ∨ p.kind = .native) (default default' : FloatFormat)
    (root : Record) (target : LabelTarget) :
    (p.serialize engine options default root target).result = (p.serialize engine options default' root target).result := by
  rcases fixed with named | native
  · obtain ⟨format, eq⟩ := Option.isSome_iff_exists.1 named
    have same : Context.new engine options default = Context.new engine options default' := by
      unfold Context.new
      rw [eq]
      rfl
    unfold serialize
    rw [same]
  · -- the examples agree in any case, and without the text form there is nothing else
    have examples := p.serialize_native_default engine options default default' root target
    cases left : (p.serialize engine options default root target).result with
    | error failure =>
      rw [left] at examples
      cases right : (p.serialize engine options default' root target).result with
      | error failure' =>
        rw [right] at examples
        exact congrArg Except.error (Except.error.inj examples)
      | ok o =>
        rw [right] at examples
        cases examples
    | ok o =>
      obtain ⟨o', right, same⟩ := Except.map_eq_ok.1 ((left ▸ examples).symm)
      rw [right]
      have texts : o.text = o'.text := (text_of_native native left).trans (text_of_native native right).symm
      cases o
      cases o'
      cases same
      cases texts
      rfl

end Plan

end FeatureLines
