import FeatureLines.Proofs.Marshal.Mirror

/-!
# Writings on one line

A line grows at its end while features are written to it (`Context.Grows`), and it breaks only where a name breaks it.
The names that the built-in and the enumerizing marshallers write never do, whether or not the feature has a name
(`Writing.OneLine`), and neither do weights and offsets. So no text of these marshallers ends the line before it is
finished (`Context.Grows.run`).
-/

namespace FeatureLines

open Number Text

/-- A feature whose own name and whose variants' tokens do not break a line. -/
structure Feature.OneLine (feature : Feature) : Prop where
  name : '\n' ∉ feature.name.toList
  tokens : ∀ token ∈ feature.variantTokens, '\n' ∉ token.toList

namespace Writing

/-- Whatever the answers to earlier operations are, no name that is written breaks the line. -/
def OneLine : Writing → Prop
  | done => True
  | indicator name next => '\n' ∉ name.toList ∧ next.OneLine
  | weighted name _ next => '\n' ∉ name.toList ∧ next.OneLine
  | dense _ _ next => next.OneLine
  | preallocate _ next => next.OneLine
  | render _ next => ∀ text, (next text).OneLine
  | remember _ _ _ next => ∀ text, (next text).OneLine
  | look next => ∀ view, (next view).OneLine
  | report _ next => next.OneLine

/-- One writing after another breaks the line only if one of them does. -/
lemma OneLine.followedBy {w after : Writing} (first : w.OneLine) (second : after.OneLine) :
    (w.followedBy after).OneLine := by
  induction w with
  | done => exact second
  | indicator name next ih => exact ⟨first.1, ih first.2⟩
  | weighted name weight next ih => exact ⟨first.1, ih first.2⟩
  | dense anchor weights next ih => exact ih first
  | preallocate additional next ih => exact ih first
  | render rendering next ih => exact fun text => ih text (first text)
  | remember kept site rendering next ih => exact fun text => ih text (first text)
  | look next ih => exact fun view => ih view (first view)
  | report event next ih => exact ih first

/-- A writing for each of some items breaks the line only if that of an item does. -/
lemma oneLine_forEach {α : Type} {write : α → Writing} {items : List α} (each : ∀ item ∈ items, (write item).OneLine) :
    (forEach write items).OneLine := forEach_induction trivial OneLine.followedBy each

end Writing

/-! ## Names -/

/-- The end of a line is one of the characters that are escaped. -/
lemma newline_not_mem_of_not_needsEscape {s : List Char} (safe : ∀ c ∈ s, needsEscape c = false) : '\n' ∉ s := by
  intro mem
  exact absurd (safe _ mem) (by decide)

/-- An escaped text has no end of a line. -/
lemma newline_not_mem_escape (s : String) : '\n' ∉ (escape s).toList :=
  newline_not_mem_of_not_needsEscape fun _ => not_needsEscape_of_mem_escape

/-- Two texts without an end of a line have none together. -/
lemma newline_not_mem_append {s t : String} (first : '\n' ∉ s.toList) (second : '\n' ∉ t.toList) :
    '\n' ∉ (s ++ t).toList := by
  rw [String.toList_append, List.mem_append]
  exact not_or.2 ⟨first, second⟩

/-- The digits of an offset are no ends of lines. -/
lemma newline_not_mem_toString (n : Nat) : '\n' ∉ (toString n).toList := by
  intro mem
  change '\n' ∈ (Nat.repr n).toList at mem
  rw [Nat.toList_repr] at mem
  exact absurd (isDigit_of_mem_toDigits mem) (by decide)

namespace Handle

open Writing

variable {feature : Feature} (oneLine : feature.OneLine)

include oneLine

/-- A number is named by its feature. -/
lemma oneLine_numeric (cell : Cell) : (writeNumeric feature cell).OneLine := by
  unfold writeNumeric
  split
  · split
    · exact ⟨oneLine.name, trivial⟩
    · trivial
    · exact ⟨oneLine.name, trivial⟩
  · trivial

/-- A variant is one of the tokens that the feature has for its variants. -/
lemma oneLine_variant (cell : Cell) : (writeVariant feature cell).OneLine := by
  unfold writeVariant
  split
  · split
    · rename_i found
      exact ⟨oneLine.tokens _ (List.mem_of_getElem? found), trivial⟩
    · trivial
  · trivial

omit oneLine in
/-- The elements of a dense vector have offsets for names. -/
lemma oneLine_dense (feature : Feature) (cell : Cell) : (writeDense feature cell).OneLine := by
  unfold writeDense
  split <;> trivial

omit oneLine in
/-- The entries of a dictionary have their escaped keys for names. -/
lemma oneLine_dictionary (cell : Cell) : (writeDictionary cell).OneLine := by
  unfold writeDictionary
  split
  · exact oneLine_forEach fun entry _ key => ⟨newline_not_mem_escape key, trivial⟩
  · trivial

omit oneLine in
/-- The items of a bag have their escaped texts for names. -/
lemma oneLine_bag (cell : Cell) : (writeBag cell).OneLine := by
  unfold writeBag
  split
  · refine oneLine_forEach fun item _ text => ?_
    beta_reduce
    split
    · trivial
    · exact ⟨newline_not_mem_escape text, trivial⟩
  · trivial

/-- The tokens of a displayed text are escaped, whole or word by word, and only the name may stand before them. -/
lemma newline_not_mem_displayTokens {text token : String} (mem : token ∈ displayTokens feature text) :
    '\n' ∉ token.toList := by
  unfold displayTokens at mem
  split at mem
  · obtain ⟨word, -, rfl⟩ := List.mem_map.1 mem
    exact newline_not_mem_escape _
  · split at mem
    · cases mem
    · rw [List.mem_singleton.1 mem]
      exact newline_not_mem_escape text
  · rw [List.mem_singleton.1 mem]
    exact newline_not_mem_append oneLine.name (newline_not_mem_escape text)

/-- A displayed value is written by such tokens, whichever text is kept for it. -/
lemma oneLine_display (cell : Cell) : (writeDisplay feature cell).OneLine := by
  unfold writeDisplay
  split
  · exact fun text => oneLine_forEach fun token mem => ⟨newline_not_mem_displayTokens oneLine mem, trivial⟩
  · trivial

omit oneLine in
/-- A handle writes what its marshaller does, or reports that it is bound to another type. -/
lemma oneLine_write {h : Handle} {space : Namespace} {cell : Cell} (marshal : (h.marshal space feature cell).OneLine) :
    (h.write space feature cell).OneLine := by
  unfold write
  split
  · exact marshal
  · split
    · exact marshal
    · trivial

/-- A built-in marshaller does not break the line. -/
theorem oneLine_builtIn {type : ValueType} {h : Handle} (found : builtIn? type = some h) (space : Namespace)
    (cell : Cell) : (h.write space feature cell).OneLine := by
  refine oneLine_write ?_
  unfold builtIn? at found
  simp only at found
  split at found
  · cases found; exact oneLine_numeric oneLine cell
  · cases found; exact oneLine_variant oneLine cell
  · cases found; exact oneLine_dense feature cell
  · cases found; exact oneLine_dictionary cell
  · cases found; exact oneLine_bag cell
  · cases found; exact oneLine_display oneLine cell
  · cases found
  · cases found

/-- An enumerizing marshaller does not break the line. -/
theorem oneLine_enumerizing {type : ValueType} {h : Handle} (found : enumerizing? type = some h) (space : Namespace)
    (cell : Cell) : (h.write space feature cell).OneLine := by
  refine oneLine_write ?_
  unfold enumerizing? at found
  split at found
  · cases found
    exact fun text => ⟨newline_not_mem_append oneLine.name (newline_not_mem_escape text), trivial⟩
  · cases found

end Handle

/-! ## Lines that grow -/

namespace Context

/-- From one context to another the line grows by a text of some kind, and no line is finished. -/
structure Grows (kind : List Char → Prop) (c d : Context) : Prop where
  engine : d.engine = c.engine
  text : d.text = c.text
  texts : d.texts = c.texts
  line : ∃ added, d.line.toList = c.line.toList ++ added ∧ kind added

/-- No text breaks the line. -/
abbrev GrowsOneLine (c d : Context) : Prop := c.Grows ('\n' ∉ ·) d

namespace Grows

variable {kind : List Char → Prop} {c d e : Context}

/-- Where the line stays as it is, it has grown by nothing. -/
lemma of_line_eq (nothing : kind []) (engine : d.engine = c.engine) (text : d.text = c.text) (texts : d.texts = c.texts)
    (line : d.line = c.line) : c.Grows kind d :=
  ⟨engine, text, texts, [], by rw [line, List.append_nil], nothing⟩

/-- A line that is left alone has grown by nothing. -/
lemma refl (nothing : kind []) (c : Context) : c.Grows kind c := of_line_eq nothing rfl rfl rfl rfl

/-- A line that grows twice grows by both texts, in order. -/
lemma trans (append : ∀ s t, kind s → kind t → kind (s ++ t)) (h : c.Grows kind d) (h' : d.Grows kind e) :
    c.Grows kind e := by
  obtain ⟨first, line, fine⟩ := h.line
  obtain ⟨second, line', fine'⟩ := h'.line
  refine ⟨h'.engine.trans h.engine, h'.text.trans h.text, h'.texts.trans h.texts, first ++ second, ?_,
    append _ _ fine fine'⟩
  rw [line', line, List.append_assoc]

end Grows

namespace GrowsOneLine

variable {c d e : Context}

/-- A line that is left alone is not broken. -/
lemma refl (c : Context) : c.GrowsOneLine c := Grows.refl List.not_mem_nil c

/-- Two steps do not break the line if neither does. -/
lemma trans (h : c.GrowsOneLine d) (h' : d.GrowsOneLine e) : c.GrowsOneLine e :=
  Grows.trans (fun _ _ first second => by simp [first, second]) h h'

/-- What does not touch the line does not break it. -/
lemma of_line_eq (engine : d.engine = c.engine) (text : d.text = c.text) (texts : d.texts = c.texts)
    (line : d.line = c.line) : c.GrowsOneLine d := Grows.of_line_eq List.not_mem_nil engine text texts line

/-- A token is put to the line behind a blank, which does not break it either. -/
lemma addToken (c : Context) {token : String} (oneLine : '\n' ∉ token.toList) : c.GrowsOneLine (c.addToken token) := by
  unfold Context.addToken
  split
  · refine ⟨rfl, rfl, rfl, ' ' :: token.toList, by simp, ?_⟩
    simpa using oneLine
  · exact refl c

/-- The example under construction is no part of the line. -/
lemma addHashed (c : Context) (hash : UInt64) (weight : Single) : c.GrowsOneLine (c.addHashed hash weight) :=
  of_line_eq rfl rfl rfl rfl

/-- A warning is not written to the line. -/
lemma narrow (c : Context) (name : String) (weight : Double) : c.GrowsOneLine (c.narrow name weight).1 := by
  unfold Context.narrow
  simp only
  split
  · exact of_line_eq rfl rfl rfl rfl
  · exact refl c

/-- A feature by its name alone is written by its name. -/
lemma addIndicator (c : Context) {name : String} (oneLine : '\n' ∉ name.toList) :
    c.GrowsOneLine (c.addIndicator name) := by
  unfold Context.addIndicator
  split
  · exact refl c
  · exact (addHashed c _ _).trans (addToken _ oneLine)

/-- The token of a name and a weight that is kept. -/
lemma addNumber (c : Context) (hash : UInt64) {name : String} (oneLine : '\n' ∉ name.toList) {weight : Single}
    (kept : isKept weight = true) :
    c.GrowsOneLine ((c.addHashed hash weight).addToken (name ++ ":" ++ c.floatFormat.text weight)) := by
  have number : weight.isNan = false := by
    simp only [isKept, Bool.and_eq_true, Bool.not_eq_true'] at kept
    exact kept.2
  have text : '\n' ∉ (c.floatFormat.text weight).toList :=
    newline_not_mem_of_not_needsEscape fun _ => FloatFormat.needsEscape_of_mem_text _ number
  exact (addHashed c _ _).trans (addToken _ (newline_not_mem_append (newline_not_mem_append oneLine (by decide)) text))

/-- A feature with a weight is written by its name and the number, if the weight is kept. -/
lemma addWeighted (c : Context) {name : String} (oneLine : '\n' ∉ name.toList) (weight : Double) :
    c.GrowsOneLine (c.addWeighted name weight) := by
  have narrowed := narrow c name weight
  unfold Context.addWeighted
  split
  · exact refl c
  · simp only
    split
    · rename_i kept
      exact narrowed.trans (addNumber _ _ oneLine kept)
    · exact narrowed

/-- A feature of a dense vector is written by its offset and the number. -/
lemma addIndex (c : Context) (space index : UInt64) {weight : Single} (kept : isKept weight = true) :
    c.GrowsOneLine (c.addIndex space index weight) := addNumber c _ (newline_not_mem_toString index.toNat) kept

/-- Elements that are not kept are skipped on the line, and the others do not break it. -/
lemma addElements (c : Context) (space index : UInt64) (weights : List Double) :
    c.GrowsOneLine (c.addElements space index weights) := by
  induction weights generalizing c index with
  | nil => exact refl c
  | cons weight weights ih =>
    have narrowed := narrow c "dense" weight
    unfold Context.addElements
    simp only
    split
    · rename_i kept
      exact (narrowed.trans (addIndex _ _ _ kept)).trans (ih _ _)
    · exact narrowed.trans (ih _ _)

/-- An anchor is one more number at the front of a dense vector. -/
lemma addDense (c : Context) (anchor : Bool) (weights : List Double) : c.GrowsOneLine (c.addDense anchor weights) := by
  unfold Context.addDense
  split
  · exact refl c
  · split
    · exact (addIndex c _ _ (by rfl)).trans (addElements _ _ _ _)
    · exact addElements c _ _ _

/-- Room for features is no part of the line. -/
lemma preallocate (c : Context) (additional : Nat) : c.GrowsOneLine (c.preallocate additional) :=
  of_line_eq rfl rfl rfl rfl

/-- What happens besides is no part of the line. -/
lemma record (c : Context) (event : Event) : c.GrowsOneLine (c.record event) := of_line_eq rfl rfl rfl rfl

/-- Making a text does not put it on the line. -/
lemma render (c : Context) (rendering : Rendering) : c.GrowsOneLine (c.render rendering).1 := by
  unfold Context.render
  split
  · exact record c _
  · exact refl c

/-- Keeping a text does not put it on the line either. -/
lemma remember (c : Context) (feature : Feature) (site : Site) (rendering : Rendering) :
    c.GrowsOneLine (c.remember feature site rendering).1 := by
  have rendered := render c rendering
  unfold Context.remember
  split
  · split
    · exact refl c
    · exact ⟨rendered.engine, rendered.text, rendered.texts, rendered.line⟩
  · exact rendered

/-- A writing whose names do not break the line does not. -/
theorem run (c : Context) {w : Writing} (oneLine : w.OneLine) : c.GrowsOneLine (c.run w) := by
  induction w generalizing c with
  | done => exact refl c
  | indicator name next ih => exact (addIndicator c oneLine.1).trans (ih _ oneLine.2)
  | weighted name weight next ih => exact (addWeighted c oneLine.1 weight).trans (ih _ oneLine.2)
  | dense anchor weights next ih => exact (addDense c anchor weights).trans (ih _ oneLine)
  | preallocate additional next ih => exact (preallocate c additional).trans (ih _ oneLine)
  | render rendering next ih => exact (render c rendering).trans (ih _ _ (oneLine _))
  | remember feature site rendering next ih => exact (remember c feature site rendering).trans (ih _ _ (oneLine _))
  | look next ih => exact ih _ c (oneLine _)
  | report event next ih => exact (record c event).trans (ih _ oneLine)

end GrowsOneLine

end Context

end FeatureLines
