import FeatureLines.Proofs.Heads
import FeatureLines.Proofs.Line.Grammar

/-!
# Labels of numbers

The text of a label of numbers is read back as these numbers (`ParsedLabel.read_text`), and it can stand at the head of
any line: it has no bar and no line break, and there are no blanks at its ends (`Label.isHead_text`). In front of the
segments of a line, and with any blanks around it, it adds this label to what the segments give
(`Label.heads_any_line`). The numbers may be infinite, and NaN is one number.
-/

namespace FeatureLines

open Number Text

/-! ## Numbers as words -/

namespace Number.Binary

/-- Every number of 32 bits is read back from its shortest decimal, NaN from its word. -/
lemma read_positional_single (x : Single) : read .single x.positional.toList = .ok x := by
  cases x with
  | nan => rfl
  | signed negative code => exact read_positional rfl

end Number.Binary

/-- The text of a number is one word without characters that need an escape, also if it is a word for an infinity or NaN. -/
lemma isTokenName_positional (x : Single) : IsTokenName x.positional := by
  refine ⟨fun empty => ?_, fun c mem => ?_⟩
  · have back := Binary.read_positional_single x
    rw [empty] at back
    cases back
  · cases x with
    | nan =>
      have word : ∀ c ∈ "NaN".toList, (!needsEscape c) = true := List.all_eq_true.1 (by decide)
      simpa using word c mem
    | signed negative code =>
      exact needsEscape_of_isNumeral (Binary.isNumeral_of_mem_textBy rfl Binary.startsWithDigit_shortest mem)

/-- The text of a natural number is one word of digits. -/
lemma isTokenName_toString (n : Nat) : IsTokenName (toString n) := by
  have digits : (toString n).toList = Nat.toDigits 10 n := Nat.toList_repr
  refine ⟨fun empty => ?_, fun c mem => ?_⟩
  · rw [empty] at digits
    exact Nat.toDigits_ne_nil digits.symm
  · rw [digits] at mem
    exact needsEscape_of_isNumeral (isNumeral_of_isDigit (isDigit_of_mem_toDigits mem))

namespace IsTokenName

variable {name : String} (named : IsTokenName name)

include named

lemma isWord : IsWord name.toList :=
  ⟨fun empty => named.ne_empty (String.toList_eq_nil_iff.1 empty), fun c mem =>
    (not_blank_of_not_needsEscape (named.safe c mem)).1⟩

lemma nocolon : ':' ∉ name.toList := fun mem => absurd (named.safe _ mem) (by decide)

lemma nobar : '|' ∉ name.toList := fun mem => absurd (named.safe _ mem) (by decide)

end IsTokenName

/-! ## Heads -/

/-- A text that is the head of a line as it stands: something without bars, and without blanks at its ends. -/
structure Line.IsHead (s : List Char) : Prop where
  ne_nil : s ≠ []
  begins : ∀ c ∈ s.head?, isBlank c = false
  stops : ∀ c ∈ s.getLast?, isBlank c = false
  nobar : '|' ∉ s

/-- A line that begins with a bar, or is empty, has nothing at its head. -/
lemma Line.exists_written_nil {rest : List Char} (behind : ∀ c ∈ rest.head?, c = '|') :
    ∃ segments, Line.Written [] segments rest := by
  refine ⟨_, Line.written_iff.2 ⟨?_, rfl⟩⟩
  cases rest with
  | nil => rfl
  | cons c rest => rw [split_cons_of_sep (p := (· == '|')) (by simp [behind c rfl])]; rfl

namespace Line.IsHead

variable {s t : List Char}

/-- A name is a head. -/
lemma of_isTokenName {name : String} (named : IsTokenName name) : IsHead name.toList where
  ne_nil := named.isWord.1
  begins c mem := named.isWord.2 c (List.mem_of_mem_head? mem)
  stops c mem := named.isWord.2 c (List.mem_of_getLast? mem)
  nobar := named.nobar

/-- Two heads with a separator between them are a head, even if the separator is a blank. -/
lemma append {sep : Char} (first : IsHead s) (second : IsHead t) (ne_bar : sep ≠ '|') : IsHead (s ++ sep :: t) where
  ne_nil := by simp
  begins c mem := by
    rw [List.head?_append_of_ne_nil _ first.ne_nil] at mem
    exact first.begins c mem
  stops c mem := by
    rw [List.getLast?_append_of_ne_nil _ (by simp), List.getLast?_cons_of_ne_nil second.ne_nil] at mem
    exact second.stops c mem
  nobar := by simp [first.nobar, second.nobar, ne_bar.symm]

/-- Blanks around a head are not part of it. -/
lemma padded (isHead : IsHead s) {before after : List Char} (front : IsGap before) (back : IsGap after) :
    Padded s (before ++ (s ++ after)) := .intro front back isHead.begins isHead.stops

/-- A head has nothing to trim. -/
lemma trim_eq (isHead : IsHead s) : trim s = s := by
  have nogap : IsGap [] := nofun
  have alone := (isHead.padded nogap nogap).trim_eq
  rwa [List.nil_append, List.append_nil] at alone

/-- In front of a line that begins with a bar, or of nothing, a head is put together with the segments of the line. -/
lemma written (isHead : IsHead s) {before after rest : List Char} {segments : List Segment} (front : IsGap before)
    (back : IsGap after) (behind : ∀ c ∈ rest.head?, c = '|') (written : Written [] segments rest) :
    Written s segments (before ++ (s ++ after) ++ rest) := by
  obtain ⟨first, texts, ⟨joined, nobar⟩, -, segments⟩ := written
  have empty : first = [] := by
    cases first with
    | nil => rfl
    | cons c first =>
      have bar : c = '|' := behind c (by rw [joined]; rfl)
      exact absurd (bar ▸ List.mem_cons_self) (nobar _ List.mem_cons_self)
  have line_eq : before ++ (s ++ after) ++ rest = before ++ (s ++ after) ++ texts.flatMap ('|' :: ·) := by
    rw [joined, empty, List.nil_append]
  refine ⟨before ++ (s ++ after), texts, ⟨line_eq, ?_⟩, isHead.padded front back, segments⟩
  have gap {gap : List Char} (blank : IsGap gap) : '|' ∉ gap := fun mem => absurd (blank _ mem) (by decide)
  rintro piece (_ | ⟨_, mem⟩)
  · simp only [List.mem_append, not_or]
    exact ⟨gap front, isHead.nobar, gap back⟩
  · exact nobar piece (List.mem_cons_of_mem _ mem)

end Line.IsHead

/-! ## Labels -/

namespace Label

/-- The numbers of a label, as the engine understands them; a weight that is not given is one. Raw text has none. -/
def numbers? : Label → Option ParsedLabel
  | simple target weight => some (.simple target (weight.getD (.one _)))
  | bandit action cost probability => some (.bandit action cost probability)
  | raw _ => none

variable {label : Label} {parsed : ParsedLabel}

/-- A simple label is its number and its weight, with a space between them. -/
lemma toList_text_weighted (target weight : Single) :
    (simple target (some weight)).text.toList = target.positional.toList ++ ' ' :: weight.positional.toList := by
  simp [text]

/-- A bandit label is its action, its cost and its probability, with colons between them. -/
lemma toList_text_bandit (action : UInt32) (cost probability : Single) :
    (bandit action cost probability).text.toList =
      (toString action.toNat).toList ++ ':' :: (cost.positional.toList ++ ':' :: probability.positional.toList) := by
  simp [text]

/-- The text of a label of numbers can be a head as it stands. -/
theorem isHead_text (numbers : label.numbers? = some parsed) : Line.IsHead label.text.toList := by
  have number (x : Single) := Line.IsHead.of_isTokenName (isTokenName_positional x)
  cases label with
  | simple target weight =>
    cases weight with
    | none => exact number target
    | some weight =>
      rw [toList_text_weighted]
      exact (number target).append (number weight) (by decide)
  | bandit action cost probability =>
    rw [toList_text_bandit]
    exact (Line.IsHead.of_isTokenName (isTokenName_toString _)).append
      ((number cost).append (number probability) (by decide)) (by decide)
  | raw text => cases numbers

/-- A label of numbers has a colon if and only if it is one of an action. -/
lemma colon_mem_text_iff (numbers : label.numbers? = some parsed) :
    ':' ∈ label.text.toList ↔ ∃ action cost probability, label = .bandit action cost probability := by
  cases label with
  | simple target weight =>
    have nocolon : ':' ∉ (simple target weight).text.toList := by
      cases weight with
      | none => exact (isTokenName_positional target).nocolon
      | some weight =>
        rw [toList_text_weighted]
        simp [(isTokenName_positional target).nocolon, (isTokenName_positional weight).nocolon]
    simp [nocolon]
  | bandit action cost probability =>
    rw [toList_text_bandit]
    simp
  | raw text => cases numbers

end Label

namespace ParsedLabel

variable {label : Label} {parsed : ParsedLabel}

/-- A number of a label is read back bit for bit. -/
lemma readNumber_positional (text : List Char) (x : Single) : readNumber text x.positional.toList = .ok x := by
  rw [readNumber, Binary.read_positional_single]
  rfl

/-- The action of a bandit label is read back. -/
lemma readAction_toString (text : List Char) (action : UInt32) :
    readAction text (toString action.toNat).toList = .ok action := by
  have digits : (toString action.toNat).toList = Nat.toDigits 10 action.toNat := Nat.toList_repr
  have bound : action.toNat ≤ 2 ^ 32 - 1 := Nat.le_sub_one_of_lt action.toNat_lt
  have digit : readDigits (2 ^ 32 - 1) .tooLarge 0 (Nat.toDigits 10 action.toNat) = .ok action.toNat :=
    readDigits_toDigits bound
  have whole : readNat (2 ^ 32 - 1) (Nat.toDigits 10 action.toNat) = .ok action.toNat := by
    have unsigned : ∀ c ∈ Nat.toDigits 10 action.toNat, c ≠ '+' := by
      rintro c mem rfl
      exact absurd (isDigit_of_mem_toDigits mem) (by decide)
    rw [← digit]
    unfold readNat
    split
    · rename_i empty
      exact absurd empty Nat.toDigits_ne_nil
    · rename_i plus
      exact absurd rfl (unsigned '+' (by rw [plus]; exact List.mem_cons_self))
    · rename_i plus
      exact absurd rfl (unsigned '+' (by rw [plus]; exact List.mem_cons_self))
    · rfl
  rw [readAction, digits, whole]
  exact congrArg Except.ok (UInt32.ofNat_toNat)

/-- A label of one number or two is read back. -/
lemma readSimple_text (target : Single) (weight : Option Single) :
    readSimple (Label.simple target weight).text.toList = .ok (.simple target (weight.getD (.one _))) := by
  have number (x : Single) : words x.positional.toList = [x.positional.toList] :=
    words_of_forall_not_isBlank (isTokenName_positional x).isWord.1 (isTokenName_positional x).isWord.2
  unfold readSimple
  cases weight with
  | none =>
    have alone : words (Label.simple target none).text.toList = [target.positional.toList] := number target
    rw [alone]
    simp only [readNumber_positional]
    rfl
  | some weight =>
    rw [Label.toList_text_weighted, words_append_cons (by decide), number target, number weight]
    simp only [List.singleton_append, readNumber_positional]
    rfl

/-- A label of an action is read back. -/
lemma readBandit_text (action : UInt32) (cost probability : Single) :
    readBandit (Label.bandit action cost probability).text.toList = .ok (.bandit action cost probability) := by
  have piece {name : String} (named : IsTokenName name) : split (· == ':') name.toList = [name.toList] :=
    split_of_forall_not fun c mem => by
      simp only [beq_eq_false_iff_ne, ne_eq]
      rintro rfl
      exact named.nocolon mem
  have pieces : split (· == ':') (Label.bandit action cost probability).text.toList =
      [(toString action.toNat).toList, cost.positional.toList, probability.positional.toList] := by
    rw [Label.toList_text_bandit, split_append_cons (by decide), split_append_cons (by decide),
      piece (isTokenName_toString _), piece (isTokenName_positional cost), piece (isTokenName_positional probability)]
    rfl
  unfold readBandit
  rw [pieces]
  simp only [readAction_toString, readNumber_positional]
  rfl

/-- No label of numbers has the text that marks shared lines. -/
lemma text_ne_sharedText (numbers : label.numbers? = some parsed) : label.text.toList ≠ sharedText.toList := by
  intro shared
  cases label with
  | simple target weight =>
    -- the mark is one word and no number
    cases weight with
    | none =>
      have back := Binary.read_positional_single target
      rw [show target.positional.toList = sharedText.toList from shared] at back
      cases back
    | some weight =>
      have blank : ' ' ∈ sharedText.toList := by rw [← shared, Label.toList_text_weighted]; simp
      exact absurd blank (by decide)
  | bandit action cost probability =>
    have colon : ':' ∈ sharedText.toList := by rw [← shared, Label.toList_text_bandit]; simp
    exact absurd colon (by decide)
  | raw text => cases numbers

/-- The text of a label of numbers is read as these numbers. -/
theorem read_text (numbers : label.numbers? = some parsed) : read label.text.toList = .ok parsed := by
  unfold read
  rw [(Label.isHead_text numbers).trim_eq]
  simp only [if_neg (text_ne_sharedText numbers), List.contains_iff_mem]
  have colon := Label.colon_mem_text_iff numbers
  cases label with
  | simple target weight =>
    cases numbers
    rw [if_neg (by simp [colon]), readSimple_text]
  | bandit action cost probability =>
    cases numbers
    rw [if_pos (colon.2 ⟨_, _, _, rfl⟩), readBandit_text]
  | raw text => cases numbers

end ParsedLabel

namespace Label

variable {label : Label} {parsed : ParsedLabel}

/-- A label of numbers is read back from its text, which is no text of another kind of label and has neither bars nor
line breaks. In front of any line that has no head of its own, blanks around it aside, it is the label of the line and
changes nothing else. -/
theorem heads_any_line (numbers : label.numbers? = some parsed) :
    ParsedLabel.read label.text.toList = .ok parsed ∧
      label.text ≠ ParsedLabel.sharedText ∧
      (':' ∈ label.text.toList ↔ ∃ action cost probability, label = .bandit action cost probability) ∧
      '|' ∉ label.text.toList ∧ '\n' ∉ label.text.toList ∧
      ∀ engine : Engine, engine.readLabel = ParsedLabel.read → ∀ before after rest : List Char,
        IsGap before → IsGap after → (∀ c ∈ rest.head?, c = '|') →
        Line.read engine (before ++ (label.text.toList ++ after) ++ rest) =
          (Line.read engine rest).map fun e => { e with label := some parsed } := by
  have isHead := isHead_text numbers
  have typed : ∀ text, label ≠ .raw text := by
    rintro text rfl
    cases numbers
  refine ⟨ParsedLabel.read_text numbers, fun shared => ParsedLabel.text_ne_sharedText numbers (by rw [shared]),
    colon_mem_text_iff numbers, isHead.nobar, newline_not_mem_text typed, ?_⟩
  intro engine usual before after rest front back behind
  obtain ⟨segments, written⟩ := Line.exists_written_nil behind
  have headed : Line.readHead engine label.text.toList = .ok (some parsed) := by
    rw [Line.readHead, if_neg isHead.ne_nil, usual, ParsedLabel.read_text numbers]
    rfl
  have blank : Line.readHead engine [] = .ok none := rfl
  rw [Line.read_eq_bind (isHead.written front back behind written), Line.read_eq_bind written, headed, blank]
  cases segments.mapM (Line.Segment.read engine) <;> rfl

/-- The greatest action, NaN for a cost and a negative zero for a probability, with blanks around them. -/
theorem heads_any_line_extremes :
    (bandit 4294967295 .nan (.signed true 0)).text = "4294967295:NaN:-0" ∧
      ParsedLabel.read (bandit 4294967295 .nan (.signed true 0)).text.toList =
        .ok (.bandit 4294967295 .nan (.signed true 0)) ∧
      Line.read (.reference 7)
          ([' '] ++ ((bandit 4294967295 .nan (.signed true 0)).text.toList ++ ['\t']) ++ "|a b".toList) =
        (Line.read (.reference 7) "|a b".toList).map fun e =>
          { e with label := some (.bandit 4294967295 .nan (.signed true 0)) } := by
  have typed : (bandit 4294967295 .nan (.signed true 0)).numbers? =
      some (.bandit 4294967295 .nan (.signed true 0)) := rfl
  obtain ⟨back, -, -, -, -, heads⟩ := heads_any_line typed
  have space : IsGap [' '] := List.all_eq_true.1 (by decide)
  have tab : IsGap ['\t'] := List.all_eq_true.1 (by decide)
  have behind : ∀ c ∈ "|a b".toList.head?, c = '|' := by
    rintro c ⟨⟩
    rfl
  exact ⟨by decide, back, heads (.reference 7) rfl _ _ _ space tab behind⟩

end Label

end FeatureLines
