import FeatureLines.Proofs.Marshal.Happenings
import FeatureLines.Proofs.Serializer.Forms

/-!
# What happens in a serialization

What happens in the writings of a record, put together along its rows (`rowsHappenings`). It is recorded, and all else
that a context is set to stays (`emitRows_reports`), and the same happens in contexts that build alike
(`rowsHappenings_alike`).
-/

namespace FeatureLines

/-- What happens while items are written one after the other. -/
def Context.happeningsOf {α : Type} (emit : α → Context → Context) (happenings : α → Context → List Happening)
    (c : Context) : List α → List Happening
  | [] => []
  | item :: rest => happenings item c ++ (emit item c).happeningsOf emit happenings rest

def Step.happenings (space : Namespace) (root : Record) (s : Step) (c : Context) : List Happening :=
  match s.descriptor.value? root with
  | some cell => c.happenings (s.handle.write space s.descriptor.feature cell)
  | none => []

/-- The namespace of a block is opened, with room for its features. -/
def Block.opened (b : Block) (c : Context) : Context :=
  if b.room = 0 then c.beginNamespace b.runtime else (c.beginNamespace b.runtime).preallocate b.room

def Block.happenings (root : Record) (b : Block) (c : Context) : List Happening :=
  (b.opened c).happeningsOf (Step.emit · b.runtime root) (Step.happenings b.runtime root) b.steps

def LinePlan.happenings (p : LinePlan) (root : Record) (c : Context) : List Happening :=
  c.happeningsOf (Block.emit · root) (Block.happenings root) p.blocks

/-- What happens while a row is written. With a refused label nothing does. -/
def Row.happenings (row : Row) (c : Context) : List Happening :=
  match row.head with
  | none => row.plan.happenings row.root c.startLine
  | some text =>
    match c.startLine.writeLabel text with
    | .ok c => row.plan.happenings row.root c
    | .error _ => []

/-- What happens while rows are written up to the first one that fails. -/
def rowsHappenings (c : Context) : List Row → List Happening
  | [] => []
  | row :: rest =>
    row.happenings c ++
      match (row.emit c).failure with
      | some _ => []
      | none => rowsHappenings (row.emit c).context rest

/-- What happens in a serialization. A target that does not fit is found before anything happens. -/
def Plan.happenings (p : Plan) (engine : Engine) (options : Options) (default : FloatFormat) (root : Record)
    (target : LabelTarget) : List Happening :=
  match p.misfit? root target with
  | some _ => []
  | none => rowsHappenings (p.start engine options default) (p.rows root target)

/-! ## It is recorded -/

namespace Context

variable {α : Type} {emit : α → Context → Context} {happenings : α → Context → List Happening}

/-- Items that are written one after the other record what happens in each of them. -/
lemma reports_foldl (each : ∀ item c, Context.Reports (happenings item c) c (emit item c)) (items : List α)
    (c : Context) : c.Reports (c.happeningsOf emit happenings items) (items.foldl (fun c item => emit item c) c) := by
  induction items generalizing c with
  | nil => exact .refl c
  | cons item items ih => exact (each item c).trans (ih _)

end Context

/-- A step records what happens in the writing of its value, if there is one. -/
lemma Step.emit_reports (space : Namespace) (root : Record) (s : Step) (c : Context) :
    c.Reports (s.happenings space root c) (s.emit space root c) := by
  unfold emit happenings
  cases s.descriptor.value? root with
  | some cell => exact .run c _
  | none => exact .refl c

/-- Opening a namespace records nothing. -/
lemma Block.opened_reports (b : Block) (c : Context) : c.Reports [] (b.opened c) := by
  have begun := Context.Reports.beginNamespace c b.runtime
  unfold opened
  split
  · exact begun
  · exact begun.quiet (.preallocate _ _)

/-- A block records what happens in its steps. -/
lemma Block.emit_reports (root : Record) (b : Block) (c : Context) :
    c.Reports (b.happenings root c) (b.emit root c) := by
  have steps := Context.reports_foldl (Step.emit_reports b.runtime root) b.steps (b.opened c)
  exact ((b.opened_reports c).trans steps).quiet (.endNamespace _)

/-- A plan records what happens in its blocks. -/
lemma LinePlan.emitBlocks_reports (p : LinePlan) (root : Record) (c : Context) :
    c.Reports (p.happenings root c) (p.emitBlocks root c) :=
  Context.reports_foldl (Block.emit_reports root) p.blocks c

/-- A row records what happens along its plan, or nothing if its label is refused. -/
lemma Row.emit_reports (row : Row) (c : Context) : c.Reports (row.happenings c) (row.emit c).context := by
  have started := Context.Reports.startLine c
  unfold emit happenings
  cases row.head with
  | none => exact (started.trans (row.plan.emitBlocks_reports row.root _)).quiet (.endLine _)
  | some label =>
    simp only
    cases written : c.startLine.writeLabel label with
    | error failure => exact started
    | ok d =>
      have labelled := started.quiet (.writeLabel written)
      exact (labelled.trans (row.plan.emitBlocks_reports row.root _)).quiet (.endLine _)

/-- What happens while rows are written is recorded. -/
theorem emitRows_reports (rows : List Row) (c : Context) : c.Reports (rowsHappenings c rows) (emitRows c rows).context := by
  induction rows generalizing c with
  | nil => exact .refl c
  | cons row rest ih =>
    have first := row.emit_reports c
    rw [emitRows_cons, rowsHappenings]
    cases (row.emit c).failure with
    | some cause => exact first.trans (.refl _)
    | none => exact first.trans (ih _)

/-! ## It is the same in contexts that build alike -/

section

variable {text text' : Bool} {c d : Context}

/-- If the same happens in every item, and contexts stay alike through it, the same happens in all items. -/
lemma Context.Alike.happeningsOf {α : Type} {emit : α → Context → Context} {happenings : α → Context → List Happening}
    {items : List α} (each : ∀ item ∈ items, ∀ {c d : Context}, c.Alike text text' d →
      (emit item c).Alike text text' (emit item d) ∧ happenings item c = happenings item d) (h : c.Alike text text' d) :
    c.happeningsOf emit happenings items = d.happeningsOf emit happenings items := by
  induction items generalizing c d with
  | nil => rfl
  | cons item items ih =>
    obtain ⟨alike, same⟩ := each item List.mem_cons_self h
    rw [Context.happeningsOf, Context.happeningsOf, same,
      ih (fun item mem => each item (List.mem_cons_of_mem _ mem)) alike]

/-- A step that the text form makes no difference to keeps contexts alike, and the same happens in both. -/
lemma Step.happenings_alike {space : Namespace} {s : Step} (blind : s.Blind text text' space) (root : Record)
    (h : c.Alike text text' d) :
    (s.emit space root c).Alike text text' (s.emit space root d) ∧
      s.happenings space root c = s.happenings space root d := by
  refine ⟨Step.emit_alike blind root h, ?_⟩
  unfold happenings
  cases s.descriptor.value? root with
  | some cell => exact h.happenings (blind cell)
  | none => rfl

/-- The same happens in a block of such steps. -/
lemma Block.happenings_alike {b : Block} (blind : ∀ s ∈ b.steps, s.Blind text text' b.runtime) (root : Record)
    (h : c.Alike text text' d) : b.happenings root c = b.happenings root d := by
  have begun := h.beginNamespace b.runtime
  have opened : (b.opened c).Alike text text' (b.opened d) := by
    unfold Block.opened
    split
    · exact begun
    · exact begun.preallocate _
  exact opened.happeningsOf fun s mem => Step.happenings_alike (blind s mem) root

/-- The same happens along a plan of such blocks. -/
lemma LinePlan.happenings_alike {p : LinePlan} (blind : ∀ b ∈ p.blocks, ∀ s ∈ b.steps, s.Blind text text' b.runtime)
    (root : Record) (h : c.Alike text text' d) : p.happenings root c = p.happenings root d :=
  h.happeningsOf fun b mem _ _ h =>
    ⟨(Context.Alike.lockstep text text').block (Block.lockstep_of_blind (blind b mem) root) h,
      Block.happenings_alike (blind b mem) root h⟩

/-- The same happens in a row with such a plan, as its label is refused in both contexts or in neither. -/
lemma Row.happenings_alike {row : Row} (blind : ∀ b ∈ row.plan.blocks, ∀ s ∈ b.steps, s.Blind text text' b.runtime)
    (h : c.Alike text text' d) : row.happenings c = row.happenings d := by
  unfold happenings
  cases row.head with
  | none => exact LinePlan.happenings_alike blind row.root h.startLine
  | some label =>
    rcases h.startLine.writeLabel label with ⟨c', d', left, right, labelled⟩ | ⟨failure, left, right⟩
    · simp only [left, right]
      exact LinePlan.happenings_alike blind row.root labelled
    · simp only [left, right]

/-- While rows are written to contexts that build alike, the same happens. -/
theorem rowsHappenings_alike {rows : List Row}
    (blind : ∀ row ∈ rows, ∀ b ∈ row.plan.blocks, ∀ s ∈ b.steps, s.Blind text text' b.runtime)
    (h : c.Alike text text' d) : rowsHappenings c rows = rowsHappenings d rows := by
  induction rows generalizing c d with
  | nil => rfl
  | cons row rest ih =>
    have first := blind row List.mem_cons_self
    obtain ⟨alike, same⟩ := (Context.Alike.lockstep text text').row (Row.lockstep_of_blind first) h.startLine
    rw [rowsHappenings, rowsHappenings, Row.happenings_alike first h, same,
      ih (fun row mem => blind row (List.mem_cons_of_mem _ mem)) alike]

end

end FeatureLines
