import FeatureLines.Label
import FeatureLines.Proofs.Results
import FeatureLines.Proofs.Text.Pieces

/-!
# Accepted labels

The characters of an accepted label are blanks, colons and those of number literals (`ParsedLabel.isLiteral_of_read`), so
a label cannot end the head of its line. Blanks around a label do not count, and blanks alone are refused.
-/

namespace FeatureLines

open Number Text

/-! ## Characters of literals -/

namespace Number

/-- The characters of which number literals, words among them, consist. -/
def isLiteral (c : Char) : Bool := c.isAlphanum || ".+-".toList.contains c

/-- A digit is a character of literals. -/
lemma isLiteral_of_isDigit {c : Char} (h : c.isDigit) : isLiteral c := by
  simp [isLiteral, Char.isAlphanum, h]

/-- A letter in either case is a character of literals. -/
lemma isLiteral_of_toLower {c : Char} (h : c.toLower.isLower) : isLiteral c := by
  have alpha : c.isAlpha := by
    unfold Char.toLower at h
    unfold Char.isAlpha Char.isUpper
    split at h
    · rename_i upper
      exact Bool.or_eq_true_iff.2 (.inl (by simpa using upper))
    · simp [h]
  simp [isLiteral, Char.isAlphanum, alpha]

/-- A number is read from digits alone, whatever stood before them. -/
lemma isDigit_of_readDigits {limit value n : Nat} {overflow : IntegerError} {s : List Char}
    (read : readDigits limit overflow value s = .ok n) : ∀ c ∈ s, c.isDigit := by
  induction s generalizing value with
  | nil => simp
  | cons d s ih =>
    unfold readDigits at read
    split at read
    · rename_i digit
      simp only at read
      split at read
      · cases read
      · rintro c (_ | ⟨_, mem⟩)
        · exact digit
        · exact ih read c mem
    · cases read

/-- A natural number is digits, after a plus sign or not. -/
lemma isLiteral_of_readNat {limit n : Nat} {s : List Char} (read : readNat limit s = .ok n) : ∀ c ∈ s, isLiteral c := by
  unfold readNat at read
  split at read
  · cases read
  · cases read
  · rintro c (_ | ⟨_, mem⟩)
    · decide
    · exact isLiteral_of_isDigit (isDigit_of_readDigits read c mem)
  · exact fun c mem => isLiteral_of_isDigit (isDigit_of_readDigits read c mem)

/-- An exponent is digits, after a sign or not. -/
lemma isLiteral_of_readExponent {s : List Char} {e : Int} (read : readExponent s = some e) : ∀ c ∈ s, isLiteral c := by
  have digits {s : List Char} {negative : Bool}
      (read : (if s.isEmpty || !s.all Char.isDigit then none
        else some (if negative then -(ofDigits s : Int) else ofDigits s)) = some e) : ∀ c ∈ s, isLiteral c := by
    split at read
    · cases read
    · rename_i all
      simp only [Bool.or_eq_true, Bool.not_eq_true', not_or, Bool.not_eq_false, List.all_eq_true] at all
      exact fun c mem => isLiteral_of_isDigit (all.2 c mem)
  unfold readExponent at read
  split at read
  rename_i negative rest signed
  split at signed
  · obtain ⟨rfl, rfl⟩ := Prod.mk.inj signed
    rintro c (_ | ⟨_, mem⟩)
    · decide
    · exact digits read c mem
  · obtain ⟨rfl, rfl⟩ := Prod.mk.inj signed
    rintro c (_ | ⟨_, mem⟩)
    · decide
    · exact digits read c mem
  · obtain ⟨rfl, rfl⟩ := Prod.mk.inj signed
    exact digits read

/-- Digits may stand before what belongs to a literal. -/
lemma isLiteral_of_dropWhile {s : List Char} (rest : ∀ c ∈ s.dropWhile Char.isDigit, isLiteral c) :
    ∀ c ∈ s, isLiteral c := by
  intro c mem
  rw [← List.takeWhile_append_dropWhile (p := Char.isDigit) (l := s)] at mem
  rcases List.mem_append.1 mem with digit | later
  · exact isLiteral_of_isDigit (List.mem_takeWhile_imp digit)
  · exact rest c later

/-- A decimal literal consists of digits, at most one point, and an exponent. -/
lemma DecimalLiteral.isLiteral_of_read? {s : List Char} {literal : DecimalLiteral} (read : read? s = some literal) :
    ∀ c ∈ s, isLiteral c := by
  -- what may follow the digits is nothing or an exponent
  have exponent {mark : Char} {after : List Char} {f : Int → DecimalLiteral}
      (read : (if mark == 'e' || mark == 'E' then (readExponent after).map f else none) = some literal) :
      ∀ c ∈ mark :: after, isLiteral c := by
    split at read
    · rename_i letter
      obtain ⟨e, found, -⟩ := Option.map_eq_some_iff.1 read
      rintro c (_ | ⟨_, mem⟩)
      · rcases Bool.or_eq_true_iff.1 letter with lower | upper
        · rw [eq_of_beq lower]; decide
        · rw [eq_of_beq upper]; decide
      · exact isLiteral_of_readExponent found c mem
    · cases read
  unfold read? at read
  simp only at read
  apply isLiteral_of_dropWhile
  split at read
  · rename_i after point
    rw [point]
    rintro c (_ | ⟨_, mem⟩)
    · decide
    · refine isLiteral_of_dropWhile ?_ c mem
      split at read
      · cases read
      · split at read
        · rename_i none
          rw [show after.dropWhile Char.isDigit = [] from none]
          simp
        · rename_i marked
          rw [show after.dropWhile Char.isDigit = _ from marked]
          exact exponent read
  · split at read
    · cases read
    · split at read
      · rename_i none
        rw [show s.dropWhile Char.isDigit = [] from none]
        simp
      · rename_i marked
        rw [show s.dropWhile Char.isDigit = _ from marked]
        exact exponent read

/-- Behind the sign stands a decimal literal or a word for an infinity or NaN. -/
lemma Binary.isLiteral_of_readUnsigned {f : Format} {negative : Bool} {s : List Char} {x : Binary f}
    (read : readUnsigned f negative s = .ok x) : ∀ c ∈ s, isLiteral c := by
  have word {text : String} (lower : ∀ c ∈ text.toList, c.isLower) (eq : s.map Char.toLower = text.toList) :
      ∀ c ∈ s, isLiteral c := fun c mem =>
    isLiteral_of_toLower (lower _ (eq ▸ List.mem_map_of_mem mem))
  unfold readUnsigned at read
  split at read
  · rename_i found
    exact DecimalLiteral.isLiteral_of_read? found
  · simp only at read
    split at read
    · rename_i infinite
      rcases infinite with short | long
      · exact word (List.all_eq_true.1 (by decide)) short
      · exact word (List.all_eq_true.1 (by decide)) long
    · split at read
      · rename_i nan
        exact word (List.all_eq_true.1 (by decide)) nan
      · cases read

/-- All that is read as a floating-point number consists of characters of literals. -/
lemma Binary.isLiteral_of_read {f : Format} {s : List Char} {x : Binary f} (read : Binary.read f s = .ok x) :
    ∀ c ∈ s, isLiteral c := by
  unfold Binary.read at read
  split at read
  · cases read
  · rintro c (_ | ⟨_, mem⟩)
    · decide
    · exact isLiteral_of_readUnsigned read c mem
  · rintro c (_ | ⟨_, mem⟩)
    · decide
    · exact isLiteral_of_readUnsigned read c mem
  · exact isLiteral_of_readUnsigned read

end Number

/-! ## Characters of labels -/

namespace ParsedLabel

/-- A part of a label that is read as a number consists of characters of literals. -/
lemma isLiteral_of_readNumber {text part : List Char} {x : Single} (read : readNumber text part = .ok x) :
    ∀ c ∈ part, isLiteral c := by
  unfold readNumber at read
  cases number : Binary.read .single part with
  | error cause => rw [number] at read; cases read
  | ok y => exact Binary.isLiteral_of_read number

/-- The action of a bandit label consists of characters of literals. -/
lemma isLiteral_of_readAction {text part : List Char} {action : UInt32} (read : readAction text part = .ok action) :
    ∀ c ∈ part, isLiteral c := by
  unfold readAction at read
  split at read
  · rename_i found
    exact isLiteral_of_readNat found
  · cases read

/-- A bandit label is made of literals and the colons between them. -/
lemma isLiteral_of_readBandit {text : List Char} {label : ParsedLabel} (read : readBandit text = .ok label) {c : Char}
    (mem : c ∈ text) : c = ':' ∨ isLiteral c := by
  unfold readBandit at read
  split at read
  · rename_i action cost probability pieces
    obtain ⟨_, readAction, read⟩ := Except.bind_eq_ok.1 read
    obtain ⟨_, readCost, read⟩ := Except.bind_eq_ok.1 read
    obtain ⟨_, readProbability, -⟩ := Except.bind_eq_ok.1 read
    rcases mem_split_of_mem (p := (· == ':')) mem with colon | ⟨piece, found, holds⟩
    · exact .inl (eq_of_beq colon)
    · right
      rw [pieces] at found
      simp only [List.mem_cons, List.not_mem_nil, or_false] at found
      rcases found with rfl | rfl | rfl
      · exact isLiteral_of_readAction readAction c holds
      · exact isLiteral_of_readNumber readCost c holds
      · exact isLiteral_of_readNumber readProbability c holds
  · cases read

/-- A simple label is made of literals and the blanks between them. -/
lemma isLiteral_of_readSimple {text : List Char} {label : ParsedLabel} (read : readSimple text = .ok label) {c : Char}
    (mem : c ∈ text) : isBlank c ∨ isLiteral c := by
  refine (mem_words_of_mem mem).imp_right fun ⟨word, found, holds⟩ => ?_
  unfold readSimple at read
  split at read
  · cases read
  · rename_i first rest pieces
    obtain ⟨_, readLabel, read⟩ := Except.bind_eq_ok.1 read
    rw [pieces] at found
    split at read
    · rcases List.mem_singleton.1 found with rfl
      exact isLiteral_of_readNumber readLabel c holds
    · obtain ⟨_, readWeight, read⟩ := Except.bind_eq_ok.1 read
      split at read
      · simp only [List.mem_cons, List.not_mem_nil, or_false] at found
        rcases found with rfl | rfl
        · exact isLiteral_of_readNumber readLabel c holds
        · exact isLiteral_of_readNumber readWeight c holds
      · cases read

/-- An accepted label consists of blanks, colons and the characters of number literals. -/
theorem isLiteral_of_read {s : List Char} {label : ParsedLabel} (accepted : read s = .ok label) {c : Char}
    (mem : c ∈ trim s) : isBlank c ∨ c = ':' ∨ isLiteral c := by
  unfold read at accepted
  simp only at accepted
  split at accepted
  · rename_i shared
    have word : ∀ c ∈ sharedText.toList, isLiteral c := List.all_eq_true.1 (by decide)
    exact .inr (.inr (word c (shared ▸ mem)))
  · split at accepted
    · exact .inr (isLiteral_of_readBandit accepted mem)
    · exact (isLiteral_of_readSimple accepted mem).imp_right .inr

/-- No accepted label has a bar, which would end the head of its line. -/
lemma ne_bar_of_read {s : List Char} {label : ParsedLabel} (accepted : read s = .ok label) {c : Char}
    (mem : c ∈ trim s) : c ≠ '|' := by
  rintro rfl
  rcases isLiteral_of_read accepted mem with blank | colon | literal
  · exact absurd blank (by decide)
  · exact absurd colon (by decide)
  · exact absurd literal (by decide)

/-- Blanks around a label do not count. -/
lemma read_trim (s : List Char) : read (trim s) = read s := by
  unfold read
  rw [trim_trim]

/-- Blanks alone are no label. -/
lemma trim_ne_nil_of_read {s : List Char} {label : ParsedLabel} (accepted : read s = .ok label) : trim s ≠ [] := by
  intro blank
  rw [← read_trim, blank] at accepted
  cases accepted

end ParsedLabel

end FeatureLines
