import Mathlib.Data.List.Basic
import Mathlib.Tactic.Linarith
import Mathlib.Tactic.Ring
import FeatureLines.Number.Layout

/-!
# Reading the layouts of decimals

`DecimalLiteral.read?` inverts both ways in which a decimal is laid out. `read?_parts` says what the reader makes of
digits, a fraction and an exponent; `Decimal.read?_positional` and `Decimal.read?_exponential` apply it to the layouts.
The characters of a layout are those of `isNumeral`, none of which has a meaning on a line.
-/

namespace FeatureLines.Number

/-- The characters of which the texts of numbers that are not NaN consist. -/
def isNumeral (c : Char) : Bool := c.isDigit || "-.einf".toList.contains c

lemma isNumeral_of_isDigit {c : Char} (h : c.isDigit) : isNumeral c := by
  simp [isNumeral, h]

/-- Digits stand for what they stand for in the base ten. -/
lemma ofDigits_eq (digits : List Char) : ofDigits digits = Nat.ofDigitChars 10 digits 0 := by
  simp [ofDigits, digitValue, Nat.ofDigitChars_eq_foldl]

/-- The digits of a natural number are read back. -/
lemma ofDigits_toDigits (n : Nat) : ofDigits (Nat.toDigits 10 n) = n := by
  rw [ofDigits_eq, Nat.ofDigitChars_ten_toDigits]

lemma isDigit_of_mem_toDigits {n : Nat} {c : Char} (h : c ∈ Nat.toDigits 10 n) : c.isDigit :=
  Nat.isDigit_of_mem_toDigits (by decide) (by decide) h

/-- Zeros that are pushed to a text are a list of zeros. -/
lemma toList_pushn (c : Char) (n : Nat) : ("".pushn c n).toList = List.replicate n c := by
  rw [String.pushn_eq_repeat_push]
  induction n with
  | zero => simp [Nat.repeat]
  | succ n ih => rw [Nat.repeat, String.toList_push, ih, List.replicate_succ']

/-- The part of a literal after its whole digits: a point with the fraction, unless the fraction is empty. -/
def fractionPart (fraction : List Char) : List Char := if fraction.isEmpty then [] else '.' :: fraction

/-- What follows the digits of a literal: nothing, or a lower case `e` with an exponent. -/
def exponentPart : Option (List Char) → List Char
  | none => []
  | some exponent => 'e' :: exponent

private lemma exponentPart_not_digit (exponent : Option (List Char)) :
    (exponentPart exponent).takeWhile Char.isDigit = [] ∧
      (exponentPart exponent).dropWhile Char.isDigit = exponentPart exponent := by
  cases exponent <;> simp [exponentPart]

/-- A literal of whole digits, a fraction and an exponent is read as its digits with the exponent that they have. -/
lemma DecimalLiteral.read?_parts (whole fraction : List Char) (exponent : Option (List Char)) (ne : whole ≠ [])
    (digits : ∀ c ∈ whole, c.isDigit) (digits' : ∀ c ∈ fraction, c.isDigit) :
    DecimalLiteral.read? (whole ++ fractionPart fraction ++ exponentPart exponent) =
      match exponent with
      | none => some ⟨ofDigits (whole ++ fraction), -(fraction.length : Int)⟩
      | some text => (readExponent text).map fun e => ⟨ofDigits (whole ++ fraction), e - fraction.length⟩ := by
  obtain ⟨take, drop⟩ := exponentPart_not_digit exponent
  have nonempty : (whole ++ fraction).isEmpty = false := by
    cases whole with
    | nil => exact absurd rfl ne
    | cons c rest => rfl
  unfold DecimalLiteral.read?
  rw [List.append_assoc, List.takeWhile_append_of_pos digits, List.dropWhile_append_of_pos digits]
  cases fraction with
  | nil =>
    simp only [fractionPart, List.isEmpty_nil, if_true, List.nil_append, take, drop, List.append_nil] at nonempty ⊢
    cases exponent with
    | none => simp [exponentPart, nonempty]
    | some text => simp [exponentPart, nonempty]
  | cons d fraction =>
    simp only [fractionPart, List.isEmpty_cons, Bool.false_eq_true, if_false, List.cons_append]
    rw [List.takeWhile_cons_of_neg (by decide), List.dropWhile_cons_of_neg (by decide)]
    simp only [List.append_nil]
    rw [← List.cons_append, List.takeWhile_append_of_pos digits', List.dropWhile_append_of_pos digits', take, drop,
      List.append_nil, nonempty]
    cases exponent <;> simp [exponentPart]

/-- An integer's text is read back as an exponent. -/
lemma readExponent_toString (i : Int) : readExponent (toString i).toList = some i := by
  have read (n : Nat) : (Nat.toDigits 10 n).isEmpty = false ∧ (Nat.toDigits 10 n).all Char.isDigit = true := by
    refine ⟨by simp [Nat.toDigits_ne_nil], ?_⟩
    rw [List.all_eq_true]
    exact fun c mem => isDigit_of_mem_toDigits mem
  cases i with
  | ofNat n =>
    change readExponent (Nat.repr n).toList = _
    obtain ⟨ne, digits⟩ := read n
    rw [Nat.toList_repr]
    unfold readExponent
    split
    · rename_i heq
      split at heq
      · rename_i head
        exact absurd (isDigit_of_mem_toDigits (n := n) (head ▸ List.mem_cons_self)) (by decide)
      · rename_i head
        exact absurd (isDigit_of_mem_toDigits (n := n) (head ▸ List.mem_cons_self)) (by decide)
      · obtain ⟨rfl, rfl⟩ := Prod.mk.inj heq
        simp [ne, digits, ofDigits_toDigits]
  | negSucc n =>
    change readExponent ("-" ++ Nat.repr (n + 1)).toList = _
    obtain ⟨ne, digits⟩ := read (n + 1)
    have text : ("-" ++ Nat.repr (n + 1)).toList = '-' :: Nat.toDigits 10 (n + 1) := by
      simp [String.toList_append, Nat.toList_repr]
    rw [text]
    simp [readExponent, ne, digits, ofDigits_toDigits, Int.negSucc_eq]

namespace Decimal

lemma digitChars_ne_nil (d : Decimal) : d.digitChars ≠ [] := Nat.toDigits_ne_nil

lemma isDigit_of_mem_digitChars {d : Decimal} {c : Char} (h : c ∈ d.digitChars) : c.isDigit :=
  isDigit_of_mem_toDigits h

/-- The digits of a decimal with places, led by as many zeros as it takes to have one before the point. -/
def placedDigits (d : Decimal) (places : Nat) : List Char :=
  List.replicate (places + 1 - d.digitChars.length) '0' ++ d.digitChars

/-- Zeros in front do not change the number. -/
lemma ofDigits_placedDigits (d : Decimal) (places : Nat) : ofDigits (d.placedDigits places) = d.digits := by
  simp [placedDigits, ofDigits_eq, Nat.ofDigitChars_append, digitChars]

/-- There is a digit before the point. -/
lemma length_placedDigits (d : Decimal) (places : Nat) : places + 1 ≤ (d.placedDigits places).length := by
  simp only [placedDigits, List.length_append, List.length_replicate]
  omega

lemma isDigit_of_mem_placedDigits {d : Decimal} {places : Nat} {c : Char} (h : c ∈ d.placedDigits places) :
    c.isDigit := by
  rcases List.mem_append.1 h with zero | digit
  · rw [(List.mem_replicate.1 zero).2]
    rfl
  · exact isDigit_of_mem_digitChars digit

/-- The parts of a positional layout: a decimal without places is its digits with zeros, one with places is cut at the
point. -/
lemma toList_positional (d : Decimal) :
    (d.positional 0).toList =
      match d.exponent with
      | .ofNat e => d.digitChars ++ (if d.digits = 0 then [] else List.replicate e '0')
      | .negSucc e =>
        (d.placedDigits (e + 1)).take ((d.placedDigits (e + 1)).length - (e + 1)) ++
          fractionPart ((d.placedDigits (e + 1)).drop ((d.placedDigits (e + 1)).length - (e + 1))) := by
  obtain ⟨digits, exponent⟩ := d
  cases exponent with
  | ofNat e =>
    by_cases zero : digits = 0 <;> simp [positional, digitChars, zero, toList_pushn]
  | negSucc e =>
    have places := length_placedDigits ⟨digits, .negSucc e⟩ (e + 1)
    have some_places : ((placedDigits ⟨digits, .negSucc e⟩ (e + 1)).drop
        ((placedDigits ⟨digits, .negSucc e⟩ (e + 1)).length - (e + 1))).isEmpty = false := by
      simp only [List.isEmpty_eq_false_iff, ne_eq, List.drop_eq_nil_iff]
      omega
    simp only [fractionPart, some_places, Bool.false_eq_true, if_false]
    simp [positional, placedDigits]

/-- A positional layout reads as the digits and the exponent of the decimal, zeros before the point counting as digits. -/
theorem read?_positional (d : Decimal) :
    DecimalLiteral.read? (d.positional 0).toList =
      match d.exponent with
      | .ofNat e => some ⟨d.digits * 10 ^ e, 0⟩
      | .negSucc e => some ⟨d.digits, .negSucc e⟩ := by
  rw [toList_positional]
  obtain ⟨digits, exponent⟩ := d
  cases exponent with
  | ofNat e =>
    have whole : ∀ c ∈ Nat.toDigits 10 digits ++ (if digits = 0 then [] else List.replicate e '0'), c.isDigit := by
      intro c mem
      rcases List.mem_append.1 mem with digit | zero
      · exact isDigit_of_mem_toDigits digit
      · split at zero
        · cases zero
        · rw [(List.mem_replicate.1 zero).2]
          rfl
    have read := DecimalLiteral.read?_parts _ [] none (by simp [Nat.toDigits_ne_nil]) whole (by simp)
    have value : ofDigits (Nat.toDigits 10 digits ++ (if digits = 0 then [] else List.replicate e '0')) =
        digits * 10 ^ e := by
      by_cases zero : digits = 0
      · rw [zero, if_pos rfl, List.append_nil, ofDigits_toDigits, Nat.zero_mul]
      · simp [zero, ofDigits_eq, Nat.ofDigitChars_append, mul_comm]
    simpa [fractionPart, exponentPart, digitChars, value] using read
  | negSucc e =>
    have places := length_placedDigits ⟨digits, .negSucc e⟩ (e + 1)
    have read := DecimalLiteral.read?_parts
      ((placedDigits ⟨digits, .negSucc e⟩ (e + 1)).take ((placedDigits ⟨digits, .negSucc e⟩ (e + 1)).length - (e + 1)))
      ((placedDigits ⟨digits, .negSucc e⟩ (e + 1)).drop ((placedDigits ⟨digits, .negSucc e⟩ (e + 1)).length - (e + 1)))
      none
      (List.ne_nil_of_length_pos (by rw [List.length_take]; omega))
      (fun c mem => isDigit_of_mem_placedDigits (List.mem_of_mem_take mem))
      (fun c mem => isDigit_of_mem_placedDigits (List.mem_of_mem_drop mem))
    have count : ((placedDigits ⟨digits, .negSucc e⟩ (e + 1)).drop
        ((placedDigits ⟨digits, .negSucc e⟩ (e + 1)).length - (e + 1))).length = e + 1 := by
      rw [List.length_drop]
      omega
    rw [exponentPart, List.append_nil] at read
    rw [read, List.take_append_drop, ofDigits_placedDigits, count]
    rfl

/-- A layout with an exponent reads as the decimal itself. -/
theorem read?_exponential (d : Decimal) : DecimalLiteral.read? d.exponential.toList = some ⟨d.digits, d.exponent⟩ := by
  have digits := ofDigits_toDigits d.digits
  have isDigit : ∀ c ∈ d.digitChars, c.isDigit := fun c mem => isDigit_of_mem_digitChars mem
  unfold exponential
  unfold digitChars at isDigit ⊢
  cases chars : Nat.toDigits 10 d.digits with
  | nil => exact absurd chars Nat.toDigits_ne_nil
  | cons first rest =>
    rw [chars] at digits isDigit
    have read := DecimalLiteral.read?_parts [first] rest
      (some (toString (d.exponent + rest.length)).toList) (by simp)
      (fun c mem => isDigit c (List.mem_singleton.1 mem ▸ List.mem_cons_self))
      (fun c mem => isDigit c (List.mem_cons_of_mem _ mem))
    simp only [readExponent_toString] at read
    have text : (String.singleton first ++ (if rest.isEmpty then "" else "." ++ String.ofList rest) ++ "e" ++
        toString (d.exponent + rest.length)).toList =
        [first] ++ fractionPart rest ++ exponentPart (some (toString (d.exponent + rest.length)).toList) := by
      cases rest <;> simp [fractionPart, exponentPart]
    simp only [text]
    rw [read, Option.map_some, List.singleton_append, digits, Int.add_sub_cancel]

end Decimal

end FeatureLines.Number
