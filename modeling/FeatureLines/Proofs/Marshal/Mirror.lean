import FeatureLines.Proofs.Engine
import FeatureLines.Proofs.Line
import FeatureLines.Proofs.Marshal.Legible
import FeatureLines.Proofs.Number.Texts

/-!
# The line mirrors the example

Both forms of an example are written side by side, and at every moment reading the line gives what was built. Between
namespaces reading it gives the builder itself (`Line.Mirrors`). While a namespace is open, its header and its tokens
stand behind a line that mirrored the builder before (`Line.Opened`), so that closing the namespace leads back to such a
line, with the namespace or without it. `Context.Closed` and `Context.Opened` say so of a context.

What one operation preserves are the lemmas on `addToken`, `addIndicator`, `addWeighted` and `addDense`; what a whole
writing preserves is `Opened.run`.
-/

namespace FeatureLines

open Number Text

/-! ## Tokens -/

lemma isBlank_of_isDigit {c : Char} (digit : c.isDigit) : isBlank c = false := by
  simp only [Char.isDigit, ge_iff_le, Bool.and_eq_true, decide_eq_true_eq, UInt32.le_iff_toNat_le] at digit
  change 48 ≤ c.toNat ∧ c.toNat ≤ 57 at digit
  simp only [isBlank, Bool.or_eq_false_iff, Bool.and_eq_false_iff, beq_eq_false_iff_ne, decide_eq_false_iff_not]
  omega

/-- The characters of numbers have no meaning on a line. -/
lemma needsEscape_of_isNumeral {c : Char} (numeral : isNumeral c) : needsEscape c = false := by
  rcases Bool.or_eq_true_iff.1 numeral with digit | other
  · have bar : c ≠ '|' := by rintro rfl; exact absurd digit (by decide)
    have colon : c ≠ ':' := by rintro rfl; exact absurd digit (by decide)
    simp [needsEscape, isBlank_of_isDigit digit, bar, colon]
  · have all : ∀ c ∈ "-.einf".toList, needsEscape c = false := by
      simpa using List.any_eq_false.1 (show "-.einf".toList.any needsEscape = false by decide)
    exact all c (List.contains_iff_mem.1 other)

namespace FloatFormat

/-- No character of a weight needs an escape, in either format. -/
lemma needsEscape_of_mem_text (format : FloatFormat) {weight : Single} (number : weight.isNan = false) {c : Char}
    (mem : c ∈ (format.text weight).toList) : needsEscape c = false := by
  refine needsEscape_of_isNumeral ?_
  cases format with
  | compact => exact Binary.isNumeral_of_mem_textBy number Binary.startsWithDigit_shortest mem
  | scientific => exact Binary.isNumeral_of_mem_textBy number Binary.startsWithDigit_significant mem

end FloatFormat

namespace Token

/-- A word without a colon has the weight one. -/
lemma read_indicator {name : List Char} (nocolon : ':' ∉ name) : read name = .ok ⟨name, .one _⟩ := by
  unfold read
  rw [splitAtLast_of_not_mem nocolon]

/-- The weight of a word is what follows its last colon. -/
lemma read_weighted (name : List Char) {text : List Char} {weight : Single} (nocolon : ':' ∉ text)
    (number : Binary.read .single text = .ok weight) : read (name ++ ':' :: text) = .ok ⟨name, weight⟩ := by
  unfold read
  rw [splitAtLast_append_cons name nocolon]
  simp only [number]

end Token

/-! ## Lines -/

namespace Line

variable {engine : Engine} {b : Builder} {before line word name : List Char} {hash : UInt64}

/-- Reading the line gives what was built. -/
structure Mirrors (engine : Engine) (line : List Char) (b : Builder) : Prop where
  build : build engine line = .ok b
  oneLine : ∀ c ∈ line, c ≠ '\n'

/-- Behind the line before it, a namespace is open in which the line has built `b`. -/
inductive Opened (engine : Engine) (before : List Char) (hash : UInt64) : List Char → Builder → Prop
  | intro {start b : Builder} {gap segment : List Char} (mirrors : Mirrors engine before start)
      (gap_eq : gap = [] ∨ gap = [' ']) (plain : ∀ c ∈ segment, c ≠ '|' ∧ c ≠ '\n')
      (hash_eq : engine.hashSpace (String.ofList (nameOf segment)) = hash)
      (ok : openSegment engine start segment = .ok b) : Opened engine before hash (before ++ gap ++ '|' :: segment) b

/-- What a name may not have in order to be one word of a line. -/
lemma plain_of_not_isBlank {c : Char} (h : isBlank c = false ∧ c ≠ '|') : c ≠ '|' ∧ c ≠ '\n' :=
  ⟨h.2, by rintro rfl; exact absurd h.1 (by decide)⟩

/-- The header of a namespace opens it. -/
lemma Mirrors.openNamespace (mirrors : Mirrors engine before b) {gap : List Char} (gap_eq : gap = [] ∨ gap = [' '])
    (word : ∀ c ∈ name, isBlank c = false ∧ c ≠ '|') :
    Opened engine before (engine.hashSpace (String.ofList name)) (before ++ gap ++ '|' :: name)
      (b.openNamespace (indexOf name) (engine.hashSpace (String.ofList name))) := by
  have nonblank : ∀ c ∈ name, isBlank c = false := fun c mem => (word c mem).1
  refine .intro mirrors gap_eq (fun c mem => plain_of_not_isBlank (word c mem)) ?_
    (openSegment_of_forall_not_isBlank b nonblank)
  rw [nameOf_of_forall_not_isBlank nonblank]

/-- A word on the line is a feature of the open namespace. -/
lemma Opened.append_word (opened : Opened engine before hash line b) {token : Token}
    (plain : ∀ c ∈ word, isBlank c = false ∧ c ≠ '|') (ne : word ≠ []) (read : Token.read word = .ok token)
    (kept : token.isKept = true) :
    Opened engine before hash (line ++ ' ' :: word)
      (b.addFeature (engine.hashFeature (String.ofList token.name) hash) token.weight) := by
  obtain @⟨start, b, gap, segment, mirrors, gap_eq, plain', hash_eq, ok⟩ := opened
  have nonblank : ∀ c ∈ word, isBlank c = false := fun c mem => (plain c mem).1
  have longer : Opened engine before hash (before ++ gap ++ '|' :: (segment ++ ' ' :: word))
      (b.addFeature (engine.hashFeature (String.ofList token.name) hash) token.weight) := by
    refine .intro mirrors gap_eq (fun c mem => ?_) (by rw [nameOf_append_space, hash_eq]) ?_
    · rcases List.mem_append.1 mem with old | new
      · exact plain' c old
      · rcases List.mem_cons.1 new with rfl | new
        · decide
        · exact plain_of_not_isBlank (plain c new)
    · rw [openSegment_append_word start ne nonblank, ok, hash_eq]
      exact addWords_singleton b read kept
  simpa using longer

/-- Without its empty namespace the line mirrors the builder again. -/
lemma Opened.retract (opened : Opened engine before hash line b) (empty : b.closeNamespace.2 = 0) :
    Mirrors engine before b.closeNamespace.1 := by
  -- the header goes with the namespace, so it is the line before that has to be read again
  obtain ⟨mirrors, -, -, -, ok⟩ := opened
  rw [closeNamespace_of_openSegment (current_of_build mirrors.build) ok empty]
  exact mirrors

/-- The line mirrors what is built when the namespace is closed. -/
lemma Opened.close (opened : Opened engine before hash line b) : Mirrors engine line b.closeNamespace.1 := by
  obtain @⟨start, b, gap, segment, mirrors, gap_eq, plain, -, ok⟩ := opened
  -- a reader has the gap before the header as the end of the line before, where it does not count
  have spaced : build engine (before ++ gap) = .ok start := by
    rcases gap_eq with rfl | rfl
    · rw [List.append_nil, mirrors.build]
    · rw [build_append_space, mirrors.build]
  constructor
  · rw [build_append_bar _ fun c mem => (plain c mem).1, spaced]
    change addSegment engine start segment = _
    rw [addSegment_eq_map, ok]
    rfl
  · intro c mem
    rcases List.mem_append.1 mem with front | back
    · rcases List.mem_append.1 front with old | space
      · exact mirrors.oneLine c old
      · rcases gap_eq with rfl | rfl
        · cases space
        · rw [List.mem_singleton.1 space]
          decide
    · rcases List.mem_cons.1 back with rfl | new
      · decide
      · exact (plain c new).2

end Line

/-! ## Contexts -/

namespace Context

variable {engine : Engine} {c : Context} {space : OpenNamespace}

/-- A context for both forms whose finished lines are read as the examples that were built. -/
structure Finished (engine : Engine) (c : Context) : Prop where
  engine_eq : c.engine = engine
  text : c.text = true
  lines : List.Forall₂ (fun text native => (∀ d ∈ text.toList, d ≠ '\n') ∧ Line.read engine text.toList = .ok native)
    c.texts c.natives

/-- A line is started, and no namespace is open in it. -/
structure Closed (engine : Engine) (c : Context) : Prop extends Finished engine c where
  current : c.current = none
  mirrors : ∃ b, c.builder = some b ∧ Line.Mirrors engine c.line.toList b

/-- A namespace of the line is open. -/
structure Opened (engine : Engine) (space : OpenNamespace) (c : Context) : Prop extends Finished engine c where
  current : c.current = some space
  opened : ∃ b, c.builder = some b ∧ Line.Opened engine space.before.toList space.hash c.line.toList b

namespace Opened

/-- Writing a feature and its token at once keeps the two forms together. -/
lemma addToken (h : c.Opened engine space) {token : Token} {word : String}
    (plain : ∀ d ∈ word.toList, isBlank d = false ∧ d ≠ '|') (ne : word ≠ "") (read : Token.read word.toList = .ok token)
    (kept : token.isKept = true) :
    ((c.addHashed (engine.hashFeature (String.ofList token.name) space.hash) token.weight).addToken word).Opened engine
      space := by
  obtain ⟨b, builder, opened⟩ := h.opened
  have longer := opened.append_word plain (by simpa using ne) read kept
  unfold Context.addToken addHashed
  rw [if_pos h.text]
  refine ⟨⟨h.engine_eq, h.text, h.lines⟩, h.current, _, congrArg (Option.map _) builder, ?_⟩
  simpa using longer

/-- An indicator is a token and a feature of the same name. -/
lemma addIndicator (h : c.Opened engine space) {name : String} (named : IsTokenName name) :
    (c.addIndicator name).Opened engine space := by
  have nocolon : ':' ∉ name.toList := fun mem => absurd (named.safe _ mem) (by decide)
  have read := Token.read_indicator nocolon
  have written := h.addToken named.isWeightName named.ne_empty read (by rfl)
  unfold Context.addIndicator
  rw [h.current]
  simp only [h.engine_eq]
  rwa [String.ofList_toList] at written

/-- A token of a name and a weight, if the weight is that of a feature. -/
lemma addNumber (h : c.Opened engine space) {name : String} (named : IsWeightName name) {weight : Single}
    (kept : isKept weight = true) :
    ((c.addHashed (engine.hashFeature name space.hash) weight).addToken
      (name ++ ":" ++ c.floatFormat.text weight)).Opened engine space := by
  have number : weight.isNan = false := by
    simp only [isKept, Bool.and_eq_true, Bool.not_eq_true'] at kept
    exact kept.2
  -- the text of the weight has no colon, so the last colon of the token is the one before it
  have safe : ∀ d ∈ (c.floatFormat.text weight).toList, needsEscape d = false := fun d =>
    FloatFormat.needsEscape_of_mem_text _ number
  have text : (name ++ ":" ++ c.floatFormat.text weight).toList =
      name.toList ++ ':' :: (c.floatFormat.text weight).toList := by simp
  have read := Token.read_weighted name.toList (fun mem => absurd (safe _ mem) (by decide))
    (c.floatFormat.read_text number)
  rw [← text] at read
  have written := h.addToken (fun d mem => ?_) (fun empty => ?_) read kept
  · simpa using written
  · rw [text] at mem
    rcases List.mem_append.1 mem with front | back
    · exact named d front
    · rcases List.mem_cons.1 back with rfl | back
      · decide
      · exact not_blank_of_not_needsEscape (safe d back)
  · rw [empty] at text
    simp at text

/-- A warning is no part of the line. -/
lemma narrow (h : c.Opened engine space) (name : String) (weight : Double) :
    (c.narrow name weight).1.Opened engine space := by
  unfold Context.narrow
  simp only
  split
  · exact ⟨⟨h.engine_eq, h.text, h.lines⟩, h.current, h.opened⟩
  · exact h

/-- A weight that is kept is read back as it was built. -/
lemma addWeighted (h : c.Opened engine space) {name : String} (named : IsWeightName name) (weight : Double) :
    (c.addWeighted name weight).Opened engine space := by
  have narrowed := h.narrow name weight
  unfold Context.addWeighted
  rw [h.current]
  simp only
  split
  · rename_i kept
    rw [narrowed.engine_eq]
    exact narrowed.addNumber named kept
  · exact narrowed

/-- An element of a vector is read back if the engine hashes the digits of a position as the position. -/
lemma addIndex (h : c.Opened engine space) (regular : engine.Regular) (index : UInt64) {weight : Single}
    (kept : isKept weight = true) : (c.addIndex space.hash index weight).Opened engine space := by
  have named : IsWeightName (toString index.toNat) := fun d mem => by
    change d ∈ (Nat.repr index.toNat).toList at mem
    rw [Nat.toList_repr] at mem
    exact not_blank_of_not_needsEscape (needsEscape_of_isNumeral (isNumeral_of_isDigit (isDigit_of_mem_toDigits mem)))
  have written := h.addNumber named kept
  unfold Context.addIndex
  rwa [h.engine_eq, ← regular.hashFeature_offset]

/-- All elements of a vector that are kept are read back. -/
lemma addElements (h : c.Opened engine space) (regular : engine.Regular) (index : UInt64) (weights : List Double) :
    (c.addElements space.hash index weights).Opened engine space := by
  induction weights generalizing c index with
  | nil => exact h
  | cons weight weights ih =>
    have narrowed := h.narrow "dense" weight
    unfold Context.addElements
    simp only
    split
    · rename_i kept
      exact ih (narrowed.addIndex regular index kept) _
    · exact ih narrowed _

/-- A vector is read back, with its anchor if it has one. -/
lemma addDense (h : c.Opened engine space) (regular : engine.Regular) (anchor : Bool) (weights : List Double) :
    (c.addDense anchor weights).Opened engine space := by
  unfold Context.addDense
  rw [h.current]
  simp only
  split
  · exact (h.addIndex regular 0 (by rfl)).addElements regular 1 weights
  · exact h.addElements regular 0 weights

lemma preallocate (h : c.Opened engine space) (additional : Nat) : (c.preallocate additional).Opened engine space := by
  obtain ⟨b, builder, opened⟩ := h.opened
  exact ⟨⟨h.engine_eq, h.text, h.lines⟩, h.current, b, by rw [Context.preallocate, builder]; rfl, opened⟩

lemma render (h : c.Opened engine space) (rendering : Rendering) : (c.render rendering).1.Opened engine space := by
  unfold Context.render
  cases rendering.counted with
  | none => exact h
  | some serial => exact ⟨⟨h.engine_eq, h.text, h.lines⟩, h.current, h.opened⟩

/-- Keeping a text is no part of the line. -/
lemma remember (h : c.Opened engine space) (feature : Feature) (site : Site) (rendering : Rendering) :
    (c.remember feature site rendering).1.Opened engine space := by
  have rendered := h.render rendering
  unfold Context.remember
  split
  · split
    · exact h
    · exact ⟨⟨rendered.engine_eq, rendered.text, rendered.lines⟩, rendered.current, rendered.opened⟩
  · exact rendered

/-- A legible writing keeps the two forms together. -/
theorem run (h : c.Opened engine space) (regular : engine.Regular) {w : Writing} (legible : c.Legible w) :
    (c.run w).Opened engine space := by
  induction w generalizing c with
  | done => exact h
  | indicator name next ih => exact ih (h.addIndicator legible.1) legible.2
  | weighted name weight next ih => exact ih (h.addWeighted legible.1 weight) legible.2
  | dense anchor weights next ih => exact ih (h.addDense regular anchor weights) legible
  | preallocate additional next ih => exact ih (h.preallocate additional) legible
  | render rendering next ih => exact ih _ (h.render rendering) legible
  | remember feature site rendering next ih => exact ih _ (h.remember feature site rendering) legible
  | look next ih => exact ih _ h legible
  | report event next ih =>
    exact ih (c := c.record event) ⟨⟨h.engine_eq, h.text, h.lines⟩, h.current, h.opened⟩ legible

/-- Closing the namespace leads back to a line without an open one. -/
theorem endNamespace (h : c.Opened engine space) : c.endNamespace.Closed engine := by
  obtain ⟨b, builder, opened⟩ := h.opened
  unfold Context.endNamespace
  rw [h.current, builder]
  refine ⟨⟨h.engine_eq, h.text, h.lines⟩, rfl, b.closeNamespace.1, rfl, ?_⟩
  simp only [Option.map_some, Option.getD_some]
  split
  · rename_i empty
    exact opened.retract empty
  · exact opened.close

end Opened

/-- The header of a namespace opens it in both forms. -/
theorem Closed.beginNamespace (h : c.Closed engine) {n : Namespace}
    (plain : ∀ d ∈ n.fullName.toList, isBlank d = false ∧ d ≠ '|') :
    (c.beginNamespace n).Opened engine ⟨engine.hashSpace n.fullName, c.line⟩ := by
  obtain ⟨b, builder, mirrors⟩ := h.mirrors
  have begun (gap : List Char) (gap_eq : gap = [] ∨ gap = [' ']) := mirrors.openNamespace gap_eq plain
  rw [String.ofList_toList] at begun
  refine ⟨⟨h.engine_eq, h.text, h.lines⟩, by rw [← h.engine_eq]; rfl,
    b.openNamespace (Line.indexOf n.fullName.toList) (engine.hashSpace n.fullName), ?_, ?_⟩
  · rw [← h.engine_eq, Context.beginNamespace, builder]
    rfl
  · simp only [Context.beginNamespace, h.text, if_true, Namespace.header]
    split
    · rename_i empty
      have start : c.line = "" := by simpa using empty
      simpa [start] using begun [] (.inl rfl)
    · simpa using begun [' '] (.inr rfl)

end Context

end FeatureLines
