import FeatureLines.Proofs.Marshal.Memo
import FeatureLines.Proofs.Serializer.Refused

/-!
# Records in one context

Several records may be written to one context. The texts that it keeps are then kept from record to record, and what is
stored at a site by then may not be what was stored there before. As long as the texts that are kept for a site are one, the
output is the same as without keeping any (`Context.finish_emitAll_forgetting`); when a site is used again for another value,
it need not be (`Context.finish_emitAll_forgetting_ne`).
-/

namespace FeatureLines

variable {texts : Site → String} {all all' : Bool} {root : Record} {c d : Context}

/-! ## Rows of twins -/

/-- Two steps write the same for a record, whichever texts are kept. -/
structure Step.Twin (texts : Site → String) (all all' : Bool) (space : Namespace) (root : Record) (s s' : Step) : Prop where
  value : s'.descriptor.value? root = s.descriptor.value? root
  write : ∀ cell, s.descriptor.value? root = some cell →
    (s.handle.write space s.descriptor.feature cell).Twin texts all all'
      (s'.handle.write space s'.descriptor.feature cell)

/-- Two blocks write the same for a record, whichever texts are kept. -/
structure Block.Twin (texts : Site → String) (all all' : Bool) (root : Record) (b b' : Block) : Prop where
  runtime : b'.runtime = b.runtime
  dense : b'.dense = b.dense
  steps : List.Forall₂ (Step.Twin texts all all' b.runtime root) b.steps b'.steps

/-- Two rows write the same, whichever texts are kept. -/
structure Row.Twin (texts : Site → String) (all all' : Bool) (row row' : Row) : Prop where
  root : row'.root = row.root
  head : row'.head = row.head
  blocks : List.Forall₂ (Block.Twin texts all all' row.root) row.plan.blocks row'.plan.blocks

/-- Steps that are twins keep contexts twins, also where a guard leaves the value out. -/
lemma Step.emit_twins {space : Namespace} {s s' : Step} (twin : s.Twin texts all all' space root s')
    (h : c.Twins texts all all' d) : (s.emit space root c).Twins texts all all' (s'.emit space root d) := by
  unfold emit
  rw [twin.value]
  cases found : s.descriptor.value? root with
  | some cell => exact .run (twin.write cell found) h
  | none => exact h

/-- Twins stay so through all that is written around the values. -/
lemma Context.Twins.lockstep (texts : Site → String) (all all' : Bool) :
    Context.Lockstep (Context.Twins texts all all') where
  beginNamespace h space := h.step (.beginNamespace space)
  preallocate h room := h.step (.preallocate room)
  endNamespace h := h.step .endNamespace
  startLine h := h.step .startLine
  writeLabel h := h.writeLabel
  endLine h := h.step .endLine

/-- Blocks that are twins keep contexts twins. -/
lemma Block.Twin.lockstep {b b' : Block} (twin : b.Twin texts all all' root b') :
    b.Lockstep (Context.Twins texts all all') root b' where
  runtime := twin.runtime
  room := by
    unfold Block.room
    rw [twin.dense, twin.steps.length_eq]
  steps := twin.steps.imp fun _ _ step _ _ h => Step.emit_twins step h

/-- Rows that are twins keep contexts twins. -/
lemma Row.Twin.lockstep {row row' : Row} (twin : row.Twin texts all all' row') :
    row.Lockstep (Context.Twins texts all all') row' :=
  ⟨twin.root, twin.head, twin.blocks.imp fun _ _ block => block.lockstep⟩

/-- Twins fail together. -/
lemma Row.emit_twins {row row' : Row} (twin : row.Twin texts all all' row') (h : c.Twins texts all all' d) :
    (row.emit c).context.Twins texts all all' (row'.emit d).context ∧ (row.emit c).failure = (row'.emit d).failure :=
  (Context.Twins.lockstep texts all all').row twin.lockstep (h.step .startLine)

/-- Rows are written to both contexts up to the same row. -/
theorem emitRows_twins {rows rows' : List Row} (twins : List.Forall₂ (Row.Twin texts all all') rows rows')
    (h : c.Twins texts all all' d) :
    (emitRows c rows).context.Twins texts all all' (emitRows d rows').context ∧
      (emitRows c rows).failure = (emitRows d rows').failure :=
  (Context.Twins.lockstep texts all all').emitRows (twins.imp fun _ _ twin => twin.lockstep) h

/-! ## Plans that keep no texts -/

/-- The step without its texts being kept. -/
def Step.forgetting (s : Step) : Step := { s with descriptor := { s.descriptor with dictify := false } }

def Block.forgetting (b : Block) : Block := { b with steps := b.steps.map Step.forgetting }

def LinePlan.forgetting (p : LinePlan) : LinePlan := { p with blocks := p.blocks.map Block.forgetting }

def ActionPlan.forgetting (a : ActionPlan) : ActionPlan := { a with candidate := a.candidate.forgetting }

/-- The plan without texts being kept for any of its features. -/
def Plan.forgetting (p : Plan) : Plan := { p with line := p.line.forgetting, actions := p.actions.map ActionPlan.forgetting }

/-- Every value that a row writes has the text that its site stands for. -/
def Row.Tells (texts : Site → String) (row : Row) : Prop :=
  ∀ b ∈ row.plan.blocks, ∀ s ∈ b.steps, ∀ cell, s.descriptor.value? row.root = some cell →
    cell.Tells texts s.descriptor.type

/-- A step writes a value by its text, as one token or as the tokens of what is displayed. -/
def Step.Displays (s : Step) : Prop := s.resolution = .enumerized ∨ s.descriptor.type.form.shape = .display

/-- Every text that a row keeps, where those of all features are kept or not, is the one that its site stands for. -/
def Row.KeepsTold (texts : Site → String) (all : Bool) (row : Row) : Prop :=
  ∀ b ∈ row.plan.blocks, ∀ s ∈ b.steps, s.Displays → (all || s.descriptor.dictify) = true →
    ∀ cell, s.descriptor.value? row.root = some cell →
      (Handle.renderingAs s.descriptor.type cell).text = texts cell.site

/-- A step that writes values by their texts has values that have some. -/
lemma Step.Realizes.hasRendering {type : String} {r : Registry} {leaf : Leaf} {s : Step} (realizes : s.Realizes type r leaf)
    (displays : s.Displays) : Handle.hasRendering s.descriptor.type = true := by
  rw [realizes.descriptor]
  rcases displays with enumerized | shape
  · rcases resolve_eq_ok realizes.resolved with ⟨source, -⟩ | ⟨source, -⟩ | ⟨-, -, -, -, found⟩ | ⟨source, -⟩
    · cases enumerized.symm.trans source
    · cases enumerized.symm.trans source
    · unfold Handle.enumerizing? at found
      split at found
      · assumption
      · cases found
    · cases enumerized.symm.trans source
  · rw [realizes.descriptor] at shape
    rw [Handle.hasRendering, shape]

/-- The texts of a row that are kept are among those that its values have. -/
lemma Row.Tells.keepsTold {r : Registry} {row : Row} (realizes : ∀ b ∈ row.plan.blocks, ∃ type g, b.Realizes type r g)
    (tells : row.Tells texts) (all : Bool) : row.KeepsTold texts all := by
  intro b block s step displays _ cell found
  obtain ⟨type, g, realized⟩ := realizes b block
  obtain ⟨leaf, -, bound⟩ := realized.steps.exists_of_mem_right step
  exact tells b block s step cell found (bound.hasRendering displays)

/-- A step with a marshaller that is not the caller's has a twin that keeps no text. -/
lemma Step.Realizes.twin {type : String} {r : Registry} {leaf : Leaf} {s : Step} (realizes : s.Realizes type r leaf)
    (builtIn : s.isCustom = false)
    (told : s.Displays → ∀ cell, s.descriptor.value? root = some cell →
      Handle.Told texts all all' s.descriptor.type s.descriptor.feature cell) (space : Namespace) :
    s.Twin texts all all' space root s.forgetting := by
  refine ⟨rfl, fun cell value => ?_⟩
  have told displays := told displays cell value
  have resolved := realizes.resolved
  rw [← realizes.descriptor] at resolved
  unfold isCustom at builtIn
  rcases resolve_eq_ok resolved with ⟨source, -⟩ | ⟨source, -⟩ | ⟨source, -, -, -, found⟩ | ⟨-, -, -, -, found⟩
  · rw [source] at builtIn
    cases builtIn
  · rw [source] at builtIn
    cases builtIn
  · exact Handle.twin_enumerizing found (told (.inl source)) space
  · exact Handle.twin_builtIn found (fun shape => told (.inr shape)) space

/-- The row with the plan that keeps no texts. -/
def Row.forgetting (row : Row) : Row := { row with plan := row.plan.forgetting }

/-- With built-in marshallers, a row has a twin that keeps no texts. -/
lemma Row.twin_forgetting {r : Registry} {row : Row} (realizes : ∀ b ∈ row.plan.blocks, ∃ type g, b.Realizes type r g)
    (builtIn : ∀ b ∈ row.plan.blocks, ∀ s ∈ b.steps, s.isCustom = false) (told : row.KeepsTold texts (all || all')) :
    row.Twin texts all all' row.forgetting := by
  refine ⟨rfl, rfl, ?_⟩
  -- block by block and step by step, the plan that keeps no texts is the plan itself
  rw [Row.forgetting, LinePlan.forgetting, List.forall₂_map_right_iff, List.forall₂_same]
  refine fun b block => ⟨rfl, rfl, ?_⟩
  rw [Block.forgetting, List.forall₂_map_right_iff, List.forall₂_same]
  intro s step
  obtain ⟨type, g, realized⟩ := realizes b block
  obtain ⟨leaf, -, bound⟩ := realized.steps.exists_of_mem_right step
  exact bound.twin (builtIn b block s step)
    (fun displays cell value kept => told b block s step displays kept cell value) b.runtime

/-- Candidates have the same rows, whose texts are not kept. -/
lemma ActionPlan.rowsFrom_forgetting (a : ActionPlan) (target : LabelTarget) (index : Nat) (candidates : List Record) :
    a.forgetting.rowsFrom target index candidates = (a.rowsFrom target index candidates).map Row.forgetting := by
  induction candidates generalizing index with
  | nil => rfl
  | cons candidate rest ih =>
    unfold rowsFrom
    rw [ih, List.map_cons]
    rfl

namespace Plan

/-- A record has the same rows, whose texts are not kept. -/
lemma rows_forgetting (p : Plan) (root : Record) (target : LabelTarget) :
    p.forgetting.rows root target = (p.rows root target).map Row.forgetting := by
  unfold rows
  cases actions : p.actions with
  | none =>
    rw [forgetting, actions]
    rfl
  | some a =>
    rw [forgetting, actions]
    exact congrArg _ (a.rowsFrom_forgetting target 0 _)

/-- A target fits a record whether texts are kept or not. -/
lemma misfit?_forgetting (p : Plan) (root : Record) (target : LabelTarget) :
    p.forgetting.misfit? root target = p.misfit? root target := by
  unfold misfit? forgetting
  cases p.actions <;> cases target <;> rfl

variable {catalogue : Catalogue} {r : Registry} {kind : OutputKind} {id : Nat} {p : Plan}

/-- With built-in marshallers, a record is written in twin contexts along the plan and along the one that keeps no texts, or
it is refused in both for one reason. -/
lemma serializeInto_twins (compiled : Plan.compile catalogue r kind id = .ok p)
    (builtIn : ∀ b ∈ p.blocks, ∀ s ∈ b.steps, s.isCustom = false) {target : LabelTarget}
    (told : ∀ row ∈ p.rows root target, row.KeepsTold texts (all || all')) (h : c.Twins texts all all' d) :
    (p.serializeInto root target c).context.Twins texts all all' (p.forgetting.serializeInto root target d).context ∧
      (p.serializeInto root target c).failure = (p.forgetting.serializeInto root target d).failure := by
  have rows : List.Forall₂ (Row.Twin texts all all') (p.rows root target) (p.forgetting.rows root target) := by
    rw [rows_forgetting, List.forall₂_map_right_iff, List.forall₂_same]
    exact fun row mem => row.twin_forgetting
      (fun b block => realizes_of_mem_blocks compiled (mem_blocks_of_mem_rows mem block))
      (fun b block => builtIn b (mem_blocks_of_mem_rows mem block)) (told row mem)
  have multiLine : p.forgetting.isMultiLine = p.isMultiLine := by
    unfold isMultiLine forgetting
    cases p.actions <;> rfl
  have marked : Context.IsPlain fun c => { c with multiLine := c.multiLine || p.isMultiLine } :=
    ⟨fun _ => rfl, fun _ => rfl, fun _ => rfl⟩
  unfold serializeInto
  rw [misfit?_forgetting]
  cases p.misfit? root target with
  | some cause => exact ⟨h, rfl⟩
  | none =>
    simp only [emit_eq_emitRows, multiLine]
    exact emitRows_twins rows (h.step marked)

end Plan

/-! ## Records one after the other -/

/-- The record is to be written along the plan that keeps no texts. -/
def Emission.forgetting (e : Emission) : Emission := { e with plan := e.plan.forgetting }

namespace Context

/-- A new context keeps no text yet, so it is a twin of one that will keep none. -/
lemma twins_new (texts : Site → String) (engine : Engine) (options : Options) (default : FloatFormat) :
    (new engine options default).Twins texts options.dictify false
      (new engine { options with dictify := false } default) := by
  refine ⟨rfl, fun site text kept => ?_, fun site text kept => ?_, rfl, rfl⟩
  · cases kept
  · cases kept

/-- Twins stay so through records one after the other, if they do through each of them, and the same ones are written. -/
lemma Twins.emitAll {emissions : List Emission}
    (each : ∀ e ∈ emissions, ∀ c d, c.Twins texts all all' d →
      (e.emit c).context.Twins texts all all' (e.forgetting.emit d).context ∧
        (e.emit c).failure = (e.forgetting.emit d).failure)
    (h : c.Twins texts all all' d) :
    (c.emitAll emissions).Twins texts all all' (d.emitAll (emissions.map Emission.forgetting)) ∧
      d.successes (emissions.map Emission.forgetting) = (c.successes emissions).map Emission.forgetting := by
  induction emissions generalizing c d with
  | nil => exact ⟨h, rfl⟩
  | cons e rest ih =>
    obtain ⟨first, others⟩ := List.forall_mem_cons.1 each
    obtain ⟨written, same⟩ := first c d h
    obtain ⟨last, successful⟩ := ih others written
    refine ⟨last, ?_⟩
    rw [List.map_cons, successes, successes, ← same, successful]
    split <;> rfl

end Context

/-! ## A site that is used again -/

namespace Notice

/-- A notice has a title, whose text is kept. -/
def catalogue : Catalogue := [⟨"Notice", [⟨"title", false, .feature { dictify := true } ⟨"String", .scalar .displayed⟩ none⟩]⟩]

def title : Descriptor :=
  .ofFeature ⟨0, "title", false⟩ { dictify := true } .root ⟨"String", .scalar .displayed⟩ none

/-- What notices are compiled to. -/
def plan : Plan :=
  ⟨.nativeAndText,
    ⟨"Notice",
      [⟨.make none none, false,
        [⟨title, ⟨"featwire::marshal::DisplayMarshaller", some ⟨"String", .scalar .displayed⟩, fun _ => Handle.writeDisplay⟩,
          .builtIn⟩]⟩],
      none⟩,
    none⟩

/-- A notice whose title is stored at some address. -/
def emission (address : Nat) (title : String) : Emission :=
  ⟨plan, [some (.leaf ⟨address, ⟨"String", .scalar .displayed⟩⟩ (.scalar (.text title)))], .none⟩

lemma compile_eq : Plan.compile catalogue .empty .nativeAndText 0 = .ok plan := by
  have extracted : catalogue.extract .root 0 = .ok [title] := by
    simp [Catalogue.extract, Catalogue.extractFields, Catalogue.fields, catalogue, Role.asMember?, Except.bind,
      Except.map, List.range, List.range.loop, title, Scope.enter, Scope.root, Descriptor.ofFeature]
  have grouped : groupFeatures "Notice" [title] = .ok [⟨⟨none, none, false⟩, [title]⟩] := by
    simp [groupFeatures, Group.collect, Group.add, Descriptor.key, Group.problem?, Group.sorted, title,
      Descriptor.ofFeature, Descriptor.isDense, Descriptor.shape, Form.shape, Scope.root]
  have line : LinePlan.compile catalogue .empty 0 = .ok plan.line :=
    Except.bind_eq_ok.2 ⟨_, extracted, Except.bind_eq_ok.2 ⟨_, grouped, rfl⟩⟩
  exact Except.bind_eq_ok.2 ⟨_, line, rfl⟩

lemma keepsTold {texts : Site → String} {address : Nat} {title : String}
    (told : title = texts ⟨address, ⟨"String", .scalar .displayed⟩⟩) (all : Bool) :
    ∀ row ∈ (emission address title).rows, row.KeepsTold texts all := by
  intro row line b block s step _ _ cell value
  cases List.mem_singleton.1 line
  cases List.mem_singleton.1 block
  cases List.mem_singleton.1 step
  cases value
  exact told

end Notice

end FeatureLines
