import FeatureLines.Proofs.Heads
import FeatureLines.Proofs.Serializer.Failures
import FeatureLines.Proofs.Serializer.TextForm

/-!
# Labels in the text

The text of a label stands at the head of its line as it is, without the blanks around it, and what follows stays on the
line: a namespace comes after a bar, and neither its header nor a built-in marshaller breaks the line
(`Block.grows_emit`). So what the text keeps of the labels is up to the labels (`Plan.keepsLabels_iff`): the usual syntax
has any blank between a target and its weight, and with a line break there, the text has a line that no example has.
-/

namespace FeatureLines

open Number Text

/-! ## Namespaces -/

/-- Whatever a leaf is called, its names are escaped. -/
lemma Leaf.oneLine (leaf : Leaf) : leaf.descriptor.feature.OneLine := by
  have name : '\n' ∉ leaf.descriptor.name.toList := newline_not_mem_escape _
  refine ⟨name, fun token mem => ?_⟩
  obtain ⟨variant, -, rfl⟩ := List.mem_map.1 mem
  exact newline_not_mem_append name (newline_not_mem_escape variant)

namespace Step

/-- The marshaller does not break the line of any context with text. -/
def OneLine (engine : Engine) (space : Namespace) (s : Step) : Prop :=
  ∀ c : Context, c.engine = engine → c.text = true →
    ∀ cell, c.GrowsOneLine (c.run (s.handle.write space s.descriptor.feature cell))

/-- A marshaller that does not come from the caller never breaks the line. -/
lemma Realizes.oneLine {type : String} {r : Registry} {leaf : Leaf} {s : Step} (realizes : s.Realizes type r leaf)
    (builtIn : s.isCustom = false) (engine : Engine) (space : Namespace) : s.OneLine engine space := by
  intro c _ _ cell
  refine .run c ?_
  rw [realizes.descriptor]
  rcases realizes.handle_eq builtIn with found | found
  · exact Handle.oneLine_enumerizing leaf.oneLine found space cell
  · exact Handle.oneLine_builtIn leaf.oneLine found space cell

variable {engine : Engine} {space : Namespace} {c : Context}

lemma grows_emitAll (engine_eq : c.engine = engine) (text : c.text = true) {steps : List Step}
    (oneLine : ∀ s ∈ steps, s.OneLine engine space) (root : Record) :
    c.GrowsOneLine (steps.foldl (fun c s => s.emit space root c) c) := by
  induction steps generalizing c with
  | nil => exact .refl c
  | cons s steps ih =>
    have first : c.GrowsOneLine (s.emit space root c) := by
      unfold emit
      split
      · exact oneLine s List.mem_cons_self c engine_eq text _
      · exact .refl c
    exact first.trans (ih (first.engine.trans engine_eq) (first.text.trans text) fun s mem =>
      oneLine s (List.mem_cons_of_mem _ mem))

end Step

/-- A block that does not break the line, neither with its header nor with its steps. -/
structure Block.OneLine (engine : Engine) (b : Block) : Prop where
  header : '\n' ∉ b.runtime.fullName.toList
  steps : ∀ s ∈ b.steps, s.OneLine engine b.runtime

section

variable {engine : Engine} {natives : List Example} {c : Context}

/-- A namespace that is closed leaves the line as it is, or as it was before the namespace. -/
lemma Context.line_endNamespace {opened : OpenNamespace} (current : c.current = some opened) :
    c.endNamespace.engine = c.engine ∧ c.endNamespace.text = c.text ∧ c.endNamespace.texts = c.texts ∧
      (c.endNamespace.line = opened.before ∨ c.endNamespace.line = c.line) := by
  unfold Context.endNamespace
  rw [current]
  refine ⟨rfl, rfl, rfl, ?_⟩
  simp only
  split
  · exact .inl rfl
  · exact .inr rfl

/-- A block leaves segments on the line, or nothing. -/
lemma Block.grows_emit (engine_eq : c.engine = engine) (text : c.text = true) {b : Block} (oneLine : b.OneLine engine)
    (root : Record) : c.Grows Line.IsBody (b.emit root c) := by
  have begun : ∃ gap, (gap = [] ∨ gap = [' ']) ∧
      (c.beginNamespace b.runtime).line.toList = c.line.toList ++ (gap ++ '|' :: b.runtime.fullName.toList) := by
    simp only [Context.beginNamespace, text, if_true, Namespace.header]
    split
    · rename_i empty
      have start : c.line = "" := by simpa using empty
      exact ⟨[], .inl rfl, by simp [start]⟩
    · exact ⟨[' '], .inr rfl, by simp⟩
  have roomed : (c.beginNamespace b.runtime).GrowsOneLine
        (if b.room = 0 then c.beginNamespace b.runtime else (c.beginNamespace b.runtime).preallocate b.room) ∧
      (c.beginNamespace b.runtime).Frame
        (if b.room = 0 then c.beginNamespace b.runtime else (c.beginNamespace b.runtime).preallocate b.room) := by
    split
    · exact ⟨.refl _, .refl _⟩
    · exact ⟨.preallocate _ _, .preallocate _ _⟩
  have written := roomed.1.trans
    (Step.grows_emitAll (roomed.1.engine.trans engine_eq) (roomed.1.text.trans text) oneLine.steps root)
  have opened := (roomed.2.trans (Step.frame_emitAll b.steps b.runtime root _)).current
  obtain ⟨gap, gap_eq, header⟩ := begun
  obtain ⟨added, line, unbroken⟩ := written.line
  obtain ⟨engine', text', texts', dropped | kept⟩ := Context.line_endNamespace opened
  · exact .of_line_eq .nil (engine'.trans written.engine) (text'.trans written.text) (texts'.trans written.texts) dropped
  · refine ⟨engine'.trans written.engine, text'.trans written.text, texts'.trans written.texts,
      gap ++ '|' :: (b.runtime.fullName.toList ++ added), ?_, .segments gap_eq ?_⟩
    · rw [Block.emit, kept, line, header]
      simp
    · exact fun mem => (List.mem_append.1 mem).elim oneLine.header unbroken

lemma LinePlan.grows_emitBlocks (engine_eq : c.engine = engine) (text : c.text = true) {p : LinePlan}
    (oneLine : ∀ b ∈ p.blocks, b.OneLine engine) (root : Record) : c.Grows Line.IsBody (p.emitBlocks root c) := by
  unfold emitBlocks
  generalize p.blocks = blocks at oneLine
  induction blocks generalizing c with
  | nil => exact .refl .nil c
  | cons b blocks ih =>
    have first := b.grows_emit engine_eq text (oneLine b List.mem_cons_self) root
    have rest := ih (first.engine.trans engine_eq) (first.text.trans text) fun b mem =>
      oneLine b (List.mem_cons_of_mem _ mem)
    exact first.trans (fun _ _ => Line.IsBody.append) rest

/-! ## Rows -/

/-- Once its label is written, a line ends with its namespaces behind it. -/
lemma LinePlan.shown_endLine {b : Builder} (h : c.Begun engine natives b) (text : c.text = true) {p : LinePlan}
    (oneLine : ∀ b ∈ p.blocks, b.OneLine engine) (root : Record) :
    ∃ (line : String) (native : Example) (body : List Char), native.label = b.label ∧ Line.IsBody body ∧
      line.toList = c.line.toList ++ body ∧ (p.emitBlocks root c).endLine.Idle engine (natives ++ [native]) ∧
      (p.emitBlocks root c).endLine.text = true ∧ (p.emitBlocks root c).endLine.texts = c.texts ++ [line] := by
  have grown := p.grows_emitBlocks h.engine_eq text oneLine root
  obtain ⟨namespaces, begun, -⟩ := p.emitBlocks_begun h root
  obtain ⟨body, line, isBody⟩ := grown.line
  refine ⟨(p.emitBlocks root c).line, ⟨b.label, b.closed ++ namespaces, b.leased⟩, body, rfl, isBody, line,
    begun.endLine, ?_⟩
  rw [Context.endLine_eq begun.current begun.builder begun.closed, ← grown.texts]
  have shown := grown.text.trans text
  exact ⟨shown, if_pos shown⟩

/-- A row that is written is a line for its head. -/
theorem Row.shows_emit (h : c.Idle engine natives) (text : c.text = true) {row : Row}
    (oneLine : ∀ b ∈ row.plan.blocks, b.OneLine engine) (ok : (row.emit c).failure = none) :
    ∃ shown, Line.Shows engine row.head shown ∧ (row.emit c).context.Idle engine (natives ++ [shown.2]) ∧
      (row.emit c).context.text = true ∧ (row.emit c).context.texts = c.texts ++ [shown.1] := by
  have start := h.startLine
  have started : c.startLine.text = true ∧ c.startLine.texts = c.texts ∧ c.startLine.line = "" := by
    unfold Context.startLine
    rw [h.builder]
    exact ⟨text, rfl, rfl⟩
  unfold emit at ok ⊢
  cases head : row.head with
  | none =>
    obtain ⟨line, native, body, label, isBody, eq, rest⟩ := row.plan.shown_endLine start started.1 oneLine row.root
    rw [started.2.2, String.toList_empty, List.nil_append] at eq
    rw [started.2.1] at rest
    exact ⟨(line, native), .blank label (eq ▸ isBody), rest⟩
  | some label =>
    simp only [head] at ok ⊢
    cases written : c.startLine.writeLabel label with
    | error failure =>
      rw [written] at ok
      cases ok
    | ok labelled =>
      obtain ⟨parsed, accepted, begun⟩ := start.writeLabel written
      obtain ⟨_, -, rfl⟩ := Except.map_eq_ok.1 written
      obtain ⟨line, native, body, label, isBody, eq, rest⟩ :=
        row.plan.shown_endLine begun started.1 oneLine row.root
      simp only [started.1, started.2.2, if_true, String.empty_append, String.toList_ofList] at eq
      simp only [started.2.1] at rest ⊢
      exact ⟨(line, native), .headed accepted label isBody eq, rest⟩

/-- Rows that are written are lines for their heads, in order. -/
theorem shows_emitRows (h : c.Idle engine natives) (text : c.text = true) {rows : List Row}
    (oneLine : ∀ row ∈ rows, ∀ b ∈ row.plan.blocks, b.OneLine engine) (ok : (emitRows c rows).failure = none) :
    ∃ shown, List.Forall₂ (Line.Shows engine) (rows.map Row.head) shown ∧
      (emitRows c rows).context.Idle engine (natives ++ shown.map Prod.snd) ∧
      (emitRows c rows).context.text = true ∧ (emitRows c rows).context.texts = c.texts ++ shown.map Prod.fst := by
  induction rows generalizing c natives with
  | nil => exact ⟨[], .nil, by rwa [List.map_nil, List.append_nil], text, by rw [List.map_nil, List.append_nil]; rfl⟩
  | cons row rest ih =>
    obtain ⟨written, eq⟩ := emitRows_cons_failure ok
    rw [eq] at ok ⊢
    obtain ⟨line, shows, idle, text', texts⟩ := row.shows_emit h text (oneLine row List.mem_cons_self) written
    obtain ⟨lines, others, idle, text', texts'⟩ :=
      ih idle text' (fun row mem => oneLine row (List.mem_cons_of_mem _ mem)) ok
    rw [texts] at texts'
    rw [List.append_assoc] at idle texts'
    exact ⟨line :: lines, .cons shows others, idle, text', texts'⟩

end

/-! ## Records -/

namespace Plan

variable {c : Catalogue} {r : Registry} {id : Nat} {options : Options} {p : Plan} {engine : Engine}

/-- A compiled plan does not break lines if the marshallers of the caller do not. -/
lemma oneLine_of_custom {kind : OutputKind} (compiled : Plan.compile c r kind id = .ok p)
    (custom : ∀ b ∈ p.blocks, ∀ s ∈ b.steps, s.isCustom = true → s.OneLine engine b.runtime) :
    ∀ b ∈ p.blocks, b.OneLine engine := by
  intro b mem
  obtain ⟨type, g, realizes⟩ := realizes_of_mem_blocks compiled mem
  refine ⟨fun newline => ?_, fun s step => ?_⟩
  · rw [realizes.runtime] at newline
    exact absurd (Namespace.plain_fullName _ _ _ newline).1 (by decide)
  · cases source : s.isCustom with
    | true => exact custom b mem s step source
    | false =>
      obtain ⟨leaf, -, bound⟩ := realizes.steps.exists_of_mem_right step
      exact bound.oneLine source engine b.runtime

/-- The text has a line for every example, and one more for every line break in a label that is written. It keeps the
labels, line by line, if and only if each of them stays on its line and in its head. In the usual syntax of labels, these
are all but the raw labels with a line break between their words. -/
theorem keepsLabels_iff (compiled : Plan.compile c r options.outputKind id = .ok p) (textOn : options.text = true)
    (custom : ∀ b ∈ p.blocks, ∀ s ∈ b.steps, s.isCustom = true → s.OneLine engine b.runtime) {default : FloatFormat}
    {root : Record} {target : LabelTarget} {o : Output}
    (ok : (p.serialize engine options default root target).result = .ok o) :
    ∃ text, o.text = some text ∧
      (split (· == '\n') text.toList).length =
        o.lines.length + ((c.chosenLabels id root target).map fun chosen => (chosen.map Label.lineBreaks).getD 0).sum ∧
      (Line.KeepsLabels engine text.toList o.lines ↔
        ∀ label, some label ∈ c.chosenLabels id root target → label.Stays engine) ∧
      (engine.readLabel = ParsedLabel.read →
        (Line.KeepsLabels engine text.toList o.lines ↔
          ∀ raw, some (.raw raw) ∈ c.chosenLabels id root target → '\n' ∉ trim raw.toList)) := by
  have oneLine := oneLine_of_custom compiled custom
  have kind : p.kind = .nativeAndText := by
    rw [(compile_spec compiled).1, Options.outputKind, if_pos textOn]
  have start := p.idle_start engine options default
  have on := text_start kind engine options default
  obtain ⟨written, rfl⟩ := serialize_eq_ok ok
  obtain ⟨shown, shows, idle, text, texts⟩ :=
    shows_emitRows start on (fun row mem b block => oneLine b (mem_blocks_of_mem_rows mem block)) written
  rw [heads_rows compiled, List.forall₂_map_left_iff] at shows
  have ne : shown ≠ [] := by
    rintro rfl
    obtain ⟨row, rest, rows, -⟩ := p.rows_eq_cons root target
    have heads := heads_rows compiled root target
    rw [List.forall₂_nil_right_iff.1 shows, rows] at heads
    cases heads
  refine ⟨"\n".intercalate (shown.map Prod.fst), ?_, ?_⟩
  · rw [Context.finish]
    simp only [idle.endLine, text, if_true, texts]
    rfl
  · rw [idle.finish, List.nil_append]
    have keeps := Line.keepsLabels_iff_of_shows shows ne
    refine ⟨Line.length_split_of_shows shows ne, keeps, fun reads => keeps.trans ?_⟩
    constructor
    · exact fun stays raw mem => (stays _ mem).oneLine
    · intro unbroken label mem
      refine Label.stays_of_oneLine reads ?_
      cases label with
      | raw text => exact unbroken text mem
      | _ => exact fun newline => Label.newline_not_mem_text (by simp) (mem_of_mem_trim newline)

/-- Every hypothesis of `keepsLabels_iff` holds of a shop with a marshaller of its own, and of a slip whose label has blanks
around it. -/
theorem keepsLabels_iff_shop :
    (∃ o text, ((Shop.plan .nativeAndText).serialize (.reference 7) { text := true } .compact
        (Shop.record (some Shop.item)) .none).result = .ok o ∧ o.text = some text ∧
      Line.KeepsLabels (.reference 7) text.toList o.lines) ∧
    ∃ o text, (Slip.plan.serialize (.reference 0) { text := true } .compact (Slip.emission "1\t2\n").root .none).result =
      .ok o ∧ o.text = some text ∧ Line.KeepsLabels (.reference 0) text.toList o.lines := by
  constructor
  · have compiled : Plan.compile Shop.catalogue .empty (Options.outputKind { text := true }) 0 =
        .ok (Shop.plan .nativeAndText) := Shop.compile_eq .nativeAndText
    have mark : Step.OneLine (.reference 7) (.make (some "attrs") none) ⟨Shop.mark, Shop.marker, .override⟩ :=
      fun c _ _ cell => by
        refine .run c (Handle.oneLine_write ?_)
        exact ⟨show '\n' ∉ "a:b".toList by decide, trivial⟩
    have custom : ∀ b ∈ (Shop.plan .nativeAndText).blocks, ∀ s ∈ b.steps, s.isCustom = true →
        s.OneLine (.reference 7) b.runtime := by
      simpa [blocks, Shop.plan, Shop.step, Step.isCustom] using mark
    have ok : ((Shop.plan .nativeAndText).serialize (.reference 7) { text := true } .compact
        (Shop.record (some Shop.item)) .none).result = .ok _ := rfl
    obtain ⟨text, shown, -, -, keeps⟩ := keepsLabels_iff compiled rfl custom ok
    have chosen : Shop.catalogue.chosenLabels 0 (Shop.record (some Shop.item)) .none = [some (.simple (.one _) none)] :=
      rfl
    refine ⟨_, text, ok, shown, (keeps rfl).2 fun raw mem => ?_⟩
    rw [chosen] at mem
    simp at mem
  · have builtIn : ∀ b ∈ Slip.plan.blocks, ∀ s ∈ b.steps, s.isCustom = false := by decide
    have ok : (Slip.plan.serialize (.reference 0) { text := true } .compact (Slip.emission "1\t2\n").root .none).result =
        .ok _ := rfl
    have compiled : Plan.compile Slip.catalogue .empty (Options.outputKind { text := true }) 0 = .ok Slip.plan :=
      Slip.compile_eq
    obtain ⟨text, shown, -, -, keeps⟩ := keepsLabels_iff compiled rfl
      (fun b block s step custom => by rw [builtIn b block s step] at custom; cases custom) ok
    have chosen : Slip.catalogue.chosenLabels 0 (Slip.emission "1\t2\n").root .none = [some (.raw "1\t2\n")] := rfl
    refine ⟨_, text, ok, shown, (keeps rfl).2 fun raw mem => ?_⟩
    rw [chosen] at mem
    cases List.mem_singleton.1 mem
    decide

/-- A line break between a target and its weight makes two lines of one: the first has the target for its label, without
the weight. -/
theorem not_keepsLabels_slip :
    Plan.compile Slip.catalogue .empty .nativeAndText 0 = .ok Slip.plan ∧
      ∃ o, (Slip.plan.serialize (.reference 0) { text := true } .compact (Slip.emission "1\n2").root .none).result = .ok o ∧
        o.text = some "1\n2 |n x:3" ∧ o.lines.length = 1 ∧
        ¬Line.KeepsLabels (.reference 0) "1\n2 |n x:3".toList o.lines ∧
        o.lines.map Example.label ≠ [some (.simple (.one _) (.one _))] ∧
        Line.headLabel (.reference 0) "1".toList = .ok (some (.simple (.one _) (.one _))) := by
  have ok : (Slip.plan.serialize (.reference 0) { text := true } .compact (Slip.emission "1\n2").root .none).result =
    .ok _ := rfl
  refine ⟨Slip.compile_eq, _, ok, by decide +kernel, by decide +kernel, fun keeps => ?_, by decide +kernel, ?_⟩
  · exact absurd keeps.length_eq (by decide +kernel)
  · rfl

end Plan

end FeatureLines
