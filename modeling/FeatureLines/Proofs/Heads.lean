import FeatureLines.Proofs.Marshal.OneLine

/-!
# Heads of lines

What stands before the first bar of a line is its head. A head is read as if nothing were behind it
(`Line.headLabel_append`). So a text of lines that were each written with a label at the head keeps these labels, line by
line, if and only if every label stays on its line and in its head (`Label.Stays`, `Line.keepsLabels_iff_of_shows`); every
line break in a label makes one line too many (`Line.length_split_of_shows`). Labels that are numbers have no line break.
-/

namespace FeatureLines

open Number Text

/-! ## Heads of lines -/

namespace Line

/-- The label that reading the head of a line gives. -/
def headLabel (engine : Engine) (line : List Char) : Except Error (Option ParsedLabel) :=
  (addHead engine (.ofExample engine.newExample) ((split (· == '|') line).headD [])).map (·.label)

/-- A text has a line for every example, and the head of each line is read as the label of its example. -/
def KeepsLabels (engine : Engine) (text : List Char) (examples : List Example) : Prop :=
  List.Forall₂ (fun line native => headLabel engine line = .ok native.label) (split (· == '\n') text) examples

/-- What stands behind the head of a line: nothing, or segments. -/
inductive IsBody : List Char → Prop
  | nil : IsBody []
  | segments {gap rest : List Char} (gap_eq : gap = [] ∨ gap = [' ']) (oneLine : '\n' ∉ rest) :
      IsBody (gap ++ '|' :: rest)

variable {engine : Engine} {head body body' : List Char}

lemma IsBody.oneLine (isBody : IsBody body) : '\n' ∉ body := by
  cases isBody with
  | nil => exact List.not_mem_nil
  | segments gap_eq oneLine => rcases gap_eq with rfl | rfl <;> simp [oneLine]

lemma IsBody.append (first : IsBody body) (second : IsBody body') : IsBody (body ++ body') := by
  cases first with
  | nil => exact second
  | segments gap_eq oneLine =>
    rw [List.append_assoc, List.cons_append]
    exact .segments gap_eq (by simp [oneLine, second.oneLine])

/-- A space at the end of a head does not count. -/
lemma headLabel_append_space (engine : Engine) (head : List Char) :
    headLabel engine (head ++ [' ']) = headLabel engine head := by
  obtain ⟨pieces, last, before, after⟩ := split_append_of_forall_not (p := (· == '|')) (t := [' ']) head (by simp)
  unfold headLabel
  rw [before, after]
  cases pieces with
  | nil => simp only [List.nil_append, List.headD_cons, addHead_append_space]
  | cons first pieces => rfl

lemma headLabel_append_bar (engine : Engine) (head rest : List Char) :
    headLabel engine (head ++ '|' :: rest) = headLabel engine head := by
  obtain ⟨first, pieces, before⟩ := exists_split_eq_cons (· == '|') head
  unfold headLabel
  rw [split_append_cons (by decide), before]
  rfl

/-- A head is read as if nothing were behind it. -/
lemma headLabel_append (isBody : IsBody body) (head : List Char) :
    headLabel engine (head ++ body) = headLabel engine head := by
  cases isBody with
  | nil => rw [List.append_nil]
  | segments gap_eq _ =>
    rw [← List.append_assoc, headLabel_append_bar]
    rcases gap_eq with rfl | rfl
    · rw [List.append_nil]
    · exact headLabel_append_space engine head

end Line

/-! ## Labels -/

namespace Label

/-- The line breaks in a label, but for those around it. -/
def lineBreaks (label : Label) : Nat := (trim label.text.toList).count '\n'

/-- A label stays on its line, and in the head of it. -/
structure Stays (engine : Engine) (label : Label) : Prop where
  oneLine : '\n' ∉ trim label.text.toList
  head : ∀ parsed, engine.readLabel label.text.toList = .ok parsed →
    Line.headLabel engine (trim label.text.toList) = .ok (some parsed)

lemma newline_not_mem_positional (x : Single) : '\n' ∉ x.positional.toList := by
  cases x with
  | nan => decide
  | signed negative code =>
    refine newline_not_mem_of_not_needsEscape fun d mem => needsEscape_of_isNumeral ?_
    exact Binary.isNumeral_of_mem_textBy rfl Binary.startsWithDigit_shortest mem

/-- A label of numbers has no line break. -/
lemma newline_not_mem_text {label : Label} (typed : ∀ text, label ≠ .raw text) : '\n' ∉ label.text.toList := by
  cases label with
  | simple target weight =>
    have space : '\n' ∉ " ".toList := by decide
    cases weight with
    | none => exact newline_not_mem_positional target
    | some weight =>
      exact newline_not_mem_append (newline_not_mem_append (newline_not_mem_positional target) space)
        (newline_not_mem_positional weight)
  | bandit action cost probability =>
    have colon : '\n' ∉ ":".toList := by decide
    have costs := newline_not_mem_append (newline_not_mem_append (newline_not_mem_toString action.toNat) colon)
      (newline_not_mem_positional cost)
    exact newline_not_mem_append (newline_not_mem_append costs colon) (newline_not_mem_positional probability)
  | raw text => exact absurd rfl (typed text)

/-- In the usual syntax nothing but a line break leads out of the head. -/
lemma stays_of_oneLine {engine : Engine} (reads : engine.readLabel = ParsedLabel.read) {label : Label}
    (oneLine : '\n' ∉ trim label.text.toList) : label.Stays engine := by
  refine ⟨oneLine, fun parsed accepted => ?_⟩
  rw [reads] at accepted
  have whole : split (· == '|') (trim label.text.toList) = [trim label.text.toList] :=
    split_of_forall_not fun d mem => by simpa using ParsedLabel.ne_bar_of_read accepted mem
  unfold Line.headLabel Line.addHead
  rw [whole, List.headD_cons, trim_trim]
  split
  · rename_i blank
    exact absurd blank (ParsedLabel.trim_ne_nil_of_read accepted)
  · rw [reads, ParsedLabel.read_trim, accepted]
    rfl

end Label

/-! ## Lines with their heads -/

namespace Line

/-- A line of the text with its example, written for a head. -/
inductive Shows (engine : Engine) : Option String → String × Example → Prop
  | blank {line : String} {native : Example} (label : native.label = engine.newExample.label) (isBody : IsBody line.toList) :
      Shows engine none (line, native)
  | headed {head line : String} {native : Example} {parsed : ParsedLabel} {body : List Char}
      (accepted : engine.readLabel head.toList = .ok parsed) (label : native.label = some parsed) (isBody : IsBody body)
      (eq : line.toList = trim head.toList ++ body) : Shows engine (some head) (line, native)

variable {engine : Engine} {shown : String × Example}

/-- The breaks of a line are those of its label. -/
lemma Shows.count_eq {chosen : Option Label} (shows : Shows engine (chosen.map Label.text) shown) :
    shown.1.toList.count '\n' = (chosen.map Label.lineBreaks).getD 0 := by
  cases chosen with
  | none =>
    obtain ⟨-, isBody⟩ := shows
    exact List.count_eq_zero.2 isBody.oneLine
  | some label =>
    obtain _ | ⟨-, -, isBody, eq⟩ := shows
    rw [eq, List.count_append, List.count_eq_zero.2 isBody.oneLine]
    rfl

/-- The head of a line is read as the label of the example if the label of the line stays there. -/
lemma Shows.headLabel_iff {chosen : Option Label} (shows : Shows engine (chosen.map Label.text) shown)
    (oneLine : '\n' ∉ shown.1.toList) :
    headLabel engine shown.1.toList = .ok shown.2.label ↔ ∀ label, chosen = some label → label.Stays engine := by
  cases chosen with
  | none =>
    obtain ⟨label, isBody⟩ := shows
    simp only [reduceCtorEq, false_implies, implies_true, iff_true]
    rw [← List.nil_append (String.toList _), headLabel_append isBody, label]
    rfl
  | some chosen =>
    obtain _ | ⟨accepted, label, isBody, eq⟩ := shows
    rw [eq] at oneLine ⊢
    rw [headLabel_append isBody, label]
    constructor
    · rintro read _ ⟨rfl⟩
      refine ⟨fun mem => oneLine (List.mem_append_left _ mem), fun parsed other => ?_⟩
      rw [accepted] at other
      cases other
      exact read
    · exact fun stays => (stays chosen rfl).head _ accepted

section

variable {labels : List (Option Label)} {shown : List (String × Example)}
  (shows : List.Forall₂ (fun chosen shown => Shows engine (chosen.map Label.text) shown) labels shown)

include shows

/-- A text has a line for every example, and one more for every line break in a label. -/
lemma length_split_of_shows (ne : shown ≠ []) :
    (split (· == '\n') ("\n".intercalate (shown.map Prod.fst)).toList).length =
      (shown.map Prod.snd).length + (labels.map fun chosen => (chosen.map Label.lineBreaks).getD 0).sum := by
  have some_line : shown.map Prod.fst ≠ [] := by simpa using ne
  rw [split_intercalate_eq_flatMap some_line, List.flatMap_map]
  clear some_line ne
  induction shows with
  | nil => rfl
  | cons first _ ih =>
    rw [List.flatMap_cons, List.length_append, ih, length_split, ← List.count, first.count_eq]
    simp only [List.map_cons, List.length_cons, List.sum_cons]
    omega

/-- Where no line is broken, the labels are kept if they stay in their heads. -/
lemma keepsLabels_iff_of_oneLine (ne : shown ≠ []) (oneLine : ∀ line ∈ shown, '\n' ∉ line.1.toList) :
    KeepsLabels engine ("\n".intercalate (shown.map Prod.fst)).toList (shown.map Prod.snd) ↔
      ∀ chosen ∈ labels, ∀ label, chosen = some label → label.Stays engine := by
  have whole : ∀ text ∈ shown.map Prod.fst, ∀ c ∈ text.toList, c ≠ '\n' := by
    rintro text mem c found rfl
    obtain ⟨line, present, rfl⟩ := List.mem_map.1 mem
    exact oneLine line present found
  have pieces := split_intercalate (by simpa using ne) whole
  unfold KeepsLabels
  rw [pieces, List.map_map, List.forall₂_map_left_iff, List.forall₂_map_right_iff, List.forall₂_same]
  exact (shows.forall_iff fun chosen line mem shows => (shows.headLabel_iff (oneLine line mem)).symm).symm

/-- A text that was put together from lines keeps their labels if every label stays on its line. -/
theorem keepsLabels_iff_of_shows (ne : shown ≠ []) :
    KeepsLabels engine ("\n".intercalate (shown.map Prod.fst)).toList (shown.map Prod.snd) ↔
      ∀ label, some label ∈ labels → label.Stays engine := by
  have unbroken : (∀ chosen ∈ labels, (chosen.map Label.lineBreaks).getD 0 = 0) ↔
      ∀ line ∈ shown, '\n' ∉ line.1.toList :=
    shows.forall_iff fun chosen line _ shows => by rw [← shows.count_eq, List.count_eq_zero]
  constructor
  · -- a line break in a label makes one line too many
    intro keeps label mem
    have count := length_split_of_shows shows ne
    rw [keeps.length_eq, Nat.left_eq_add, List.sum_eq_zero_iff_forall_eq_nat] at count
    have oneLine := unbroken.1 fun chosen mem => count _ (List.mem_map.2 ⟨chosen, mem, rfl⟩)
    exact (keepsLabels_iff_of_oneLine shows ne oneLine).1 keeps _ mem label rfl
  · intro stays
    have oneLine := unbroken.1 fun chosen mem => by
      cases chosen with
      | none => rfl
      | some label => exact List.count_eq_zero.2 (stays label mem).oneLine
    refine (keepsLabels_iff_of_oneLine shows ne oneLine).2 ?_
    rintro _ mem label rfl
    exact stays label mem

end

end Line

end FeatureLines
