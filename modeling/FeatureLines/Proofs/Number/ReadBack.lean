import FeatureLines.Proofs.Number.Literal
import FeatureLines.Proofs.Number.Rounding

/-!
# Numbers read back from their texts

A number that is not NaN is read back from its shortest decimal, and from nine significant digits when its format is the
one of 32 bits. Both texts are layouts of a decimal, and a decimal reads as the code that it is near to
(`Format.NearDecimal`): the shortest one by the test that chose it or because it is exact, the rounded one because half a
unit of its last digit is less than half the distance to the neighbouring values.

Main statements: `Binary.read_positional` and `Binary.read_scientific`. All characters of the two texts are those of
`isNumeral`.
-/

namespace FeatureLines.Number

namespace Format

variable {f : Format}

/-- A decimal lies strictly between the midpoints around the value of a code. -/
def NearDecimal (f : Format) (d : Decimal) (code : Nat) : Prop :=
  match d.exponent with
  | .ofNat e => f.Near (d.digits * 10 ^ e) 1 code
  | .negSucc e => f.Near d.digits (10 ^ (e + 1)) code

lemma NearDecimal.roundDecimal {d : Decimal} {code : Nat} (near : f.NearDecimal d code) (pos : 0 < code)
    (lt : code < f.infinity) : f.roundDecimal d.digits d.exponent = code := by
  obtain ⟨digits, exponent⟩ := d
  cases exponent with
  | ofNat e => exact roundDecimal_ofNat pos lt near
  | negSucc e => exact roundDecimal_negSucc pos lt near

/-- A zero at the end of the digits may go into the exponent. -/
lemma NearDecimal.carry {n code : Nat} {exponent : Int} (near : f.NearDecimal ⟨n * 10, exponent⟩ code) :
    f.NearDecimal ⟨n, exponent + 1⟩ code := by
  match exponent with
  | .ofNat e =>
    have power : n * 10 ^ (e + 1) = n * 10 * 10 ^ e := by ring
    change f.Near (n * 10 ^ (e + 1)) 1 code
    rw [power]
    exact near
  | .negSucc 0 =>
    change f.Near (n * 10 ^ 0) 1 code
    exact Near.unscale (k := 10) (by simpa [NearDecimal] using near)
  | .negSucc (e + 1) =>
    change f.Near n (10 ^ (e + 1)) code
    exact Near.unscale (k := 10) near

/-- The value itself, as a decimal with as many places as a unit has. -/
lemma nearDecimal_exact {code : Nat} (pos : 0 < code) :
    f.NearDecimal ⟨f.units code * 5 ^ f.unitBits, -(f.unitBits : Int)⟩ code := by
  have power : f.units code * 5 ^ f.unitBits * 2 ^ f.unitBits = 10 ^ f.unitBits * f.units code := by
    have ten : 10 ^ f.unitBits = 5 ^ f.unitBits * 2 ^ f.unitBits := by rw [← mul_pow]; rfl
    rw [ten, mul_assoc, mul_comm]
  have near : f.Near (f.units code * 5 ^ f.unitBits) (10 ^ f.unitBits) code :=
    near_of_eq pos (Nat.pos_of_neZero _) power
  cases places : f.unitBits with
  | zero => simpa [NearDecimal, places] using near
  | succ e =>
    rw [places] at near
    exact near

/-- Zeros at the end of the digits stand for an exponent. -/
lemma roundDecimal_shiftZeros {digits e code : Nat} (pos : 0 < code) (lt : code < f.infinity)
    (rounds : f.roundDecimal digits (.ofNat e) = code) : f.roundDecimal (digits * 10 ^ e) 0 = code := by
  unfold roundDecimal at rounds
  split at rounds
  · omega
  · rename_i nonzero
    simp only at rounds
    split at rounds
    · omega
    · have nonzero' : digits * 10 ^ e ≠ 0 := Nat.mul_ne_zero nonzero (pow_ne_zero e (by decide))
      have inRange : ¬2 ^ f.exponentBits ≤ 0 := Nat.not_le_of_gt (Nat.two_pow_pos _)
      unfold roundDecimal
      rw [if_neg nonzero']
      change (if 2 ^ f.exponentBits ≤ 0 then f.infinity else f.nearest (digits * 10 ^ e * 10 ^ 0) 1) = code
      rw [if_neg inRange, pow_zero, Nat.mul_one]
      exact rounds

/-- A point of a decimal grid that is chosen for a code reads back as the code. -/
lemma roundDecimal_gridPoint {code digits : Nat} {exponent : Int} (h : f.gridPoint? code exponent = some digits) :
    f.roundDecimal digits exponent = code := by
  unfold gridPoint? at h
  simp only at h
  split at h
  · rename_i low high
    simp only [Bool.and_eq_true, bne_iff_ne, ne_eq, beq_iff_eq] at low high
    split at h
    · cases h; exact low.2
    · cases h; exact high.2
  · rename_i low _
    simp only [Bool.and_eq_true, bne_iff_ne, ne_eq, beq_iff_eq] at low
    cases h; exact low.2
  · rename_i high
    simp only [Bool.and_eq_true, bne_iff_ne, ne_eq, beq_iff_eq] at high
    cases h; exact high.2
  · cases h

lemma roundDecimal_shortestFrom {code : Nat} (pos : 0 < code) (lt : code < f.infinity) (steps : Nat) :
    f.roundDecimal (f.shortestFrom code steps).digits (f.shortestFrom code steps).exponent = code := by
  induction steps with
  | zero => exact (nearDecimal_exact pos).roundDecimal pos lt
  | succ steps ih =>
    unfold shortestFrom
    simp only
    split
    · rename_i digits found
      exact roundDecimal_gridPoint found
    · exact ih

/-- The shortest decimal of a positive finite code reads back as the code. -/
theorem roundDecimal_shortest {code : Nat} (pos : 0 < code) (lt : code < f.infinity) :
    f.roundDecimal (f.shortest code).digits (f.shortest code).exponent = code :=
  roundDecimal_shortestFrom pos lt _

/-- Rounding to a whole number is off by at most one half. -/
lemma roundHalfEven_close (num : Nat) {den : Nat} (pos : 0 < den) :
    2 * num ≤ 2 * (den * roundHalfEven num den) + den ∧ 2 * (den * roundHalfEven num den) ≤ 2 * num + den := by
  have parts := Nat.div_add_mod num den
  have rest := Nat.mod_lt num pos
  have next : den * (num / den + 1) = den * (num / den) + den := by ring
  unfold roundHalfEven
  simp only
  split
  · omega
  · split
    · omega
    · rcases Nat.mod_two_eq_zero_or_one (num / den) with even | odd
      · rw [even, Nat.add_zero]; omega
      · rw [odd]; omega

/-- A value is near to its rounding on a grid on which it has enough digits. -/
lemma nearDecimal_roundHalfEven {code least : Nat} {exponent : Int} (pos : 0 < code)
    (enough : 2 * 2 ^ f.fractionBits < least)
    (big : least ≤ (f.overPower code exponent).1 / (f.overPower code exponent).2) :
    f.NearDecimal ⟨roundHalfEven (f.overPower code exponent).1 (f.overPower code exponent).2, exponent⟩ code := by
  have beyond {error value : Nat} (error_pos : 0 < error) (big : least * error ≤ value) :
      2 * 2 ^ f.fractionBits * error < value :=
    lt_of_lt_of_le (Nat.mul_lt_mul_of_pos_right enough error_pos) big
  cases exponent with
  | ofNat e =>
    have error_pos : 0 < 2 ^ f.unitBits * 10 ^ e := Nat.mul_pos (Nat.two_pow_pos _) (Nat.pos_of_neZero _)
    obtain ⟨low, high⟩ := roundHalfEven_close (f.units code) error_pos
    have small := beyond error_pos ((Nat.le_div_iff_mul_le error_pos).1 big)
    change f.Near (roundHalfEven (f.units code) (2 ^ f.unitBits * 10 ^ e) * 10 ^ e) 1 code
    generalize roundHalfEven (f.units code) (2 ^ f.unitBits * 10 ^ e) = digits at low high ⊢
    refine near_of_close pos ?_ ?_ (by rwa [one_mul])
    · linarith
    · linarith
  | negSucc e =>
    have error_pos : 0 < 2 ^ f.unitBits := Nat.two_pow_pos _
    obtain ⟨low, high⟩ := roundHalfEven_close (f.units code * 10 ^ (e + 1)) error_pos
    have small := beyond error_pos ((Nat.le_div_iff_mul_le error_pos).1 big)
    change f.Near (roundHalfEven (f.units code * 10 ^ (e + 1)) (2 ^ f.unitBits)) (10 ^ (e + 1)) code
    generalize roundHalfEven (f.units code * 10 ^ (e + 1)) (2 ^ f.unitBits) = digits at low high ⊢
    refine near_of_close pos ?_ ?_ (by rwa [mul_comm (10 ^ (e + 1))])
    · linarith
    · linarith

lemma nearDecimal_significantFrom {count code : Nat} (pos : 0 < code)
    (enough : 2 * 2 ^ f.fractionBits < 10 ^ (count - 1)) (steps : Nat) :
    f.NearDecimal (f.significantFrom count code steps) code := by
  induction steps with
  | zero => exact nearDecimal_exact pos
  | succ steps ih =>
    unfold significantFrom
    simp only
    split
    · exact ih
    · rename_i big
      have near := nearDecimal_roundHalfEven pos enough (Nat.le_of_not_lt big)
      -- rounding up may give one digit more, a one followed by zeros
      split
      · rename_i full
        have positive : count ≠ 0 := by
          rintro rfl
          have := Nat.two_pow_pos f.fractionBits
          simp only [Nat.zero_sub, pow_zero] at enough
          omega
        obtain ⟨k, rfl⟩ := Nat.exists_eq_add_one_of_ne_zero positive
        rw [full, pow_succ] at near
        exact near.carry
      · exact near

/-- Enough significant digits of a positive finite code read back as the code. -/
theorem roundDecimal_significant {count code : Nat} (pos : 0 < code) (lt : code < f.infinity)
    (enough : 2 * 2 ^ f.fractionBits < 10 ^ (count - 1)) :
    f.roundDecimal (f.significant count code).digits (f.significant count code).exponent = code :=
  (nearDecimal_significantFrom pos enough _).roundDecimal pos lt

end Format

namespace Binary

variable {f : Format}

/-- An unsigned literal is read as the code that its decimal rounds to. -/
lemma readUnsigned_of_literal {s : List Char} {literal : DecimalLiteral} (negative : Bool)
    (code : Fin (f.infinity + 1)) (read : DecimalLiteral.read? s = some literal)
    (rounds : f.roundDecimal literal.digits literal.exponent = code.val) :
    readUnsigned f negative s = .ok (.signed negative code) := by
  unfold readUnsigned
  rw [read]
  have code_le : code.val ≤ f.infinity := Nat.le_of_lt_succ code.isLt
  simp only [rounds, min_eq_right code_le]

/-- The sign before a text that starts with none is read as the sign. -/
lemma read_sign {s : List Char} (negative : Bool) (ne : s ≠ []) (minus : s.head? ≠ some '-')
    (plus : s.head? ≠ some '+') :
    read f ((if negative then "-" else "").toList ++ s) = readUnsigned f negative s := by
  cases negative with
  | true => rfl
  | false =>
    cases s with
    | nil => exact absurd rfl ne
    | cons c rest =>
      change read f (c :: rest) = _
      unfold read
      split
      · rename_i empty; cases empty
      · rename_i head; cases head; exact absurd rfl minus
      · rename_i head; cases head; exact absurd rfl plus
      · rfl

/-- A text that starts with a digit and goes on with characters of numbers. -/
def StartsWithDigit (s : List Char) : Prop := ∃ c rest, s = c :: rest ∧ c.isDigit ∧ ∀ d ∈ rest, isNumeral d

lemma startsWithDigit_append {whole rest : List Char} (ne : whole ≠ []) (digits : ∀ c ∈ whole, c.isDigit)
    (numerals : ∀ c ∈ rest, isNumeral c) : StartsWithDigit (whole ++ rest) := by
  cases whole with
  | nil => exact absurd rfl ne
  | cons c whole =>
    refine ⟨c, whole ++ rest, rfl, digits c List.mem_cons_self, fun d mem => ?_⟩
    rcases List.mem_append.1 mem with digit | other
    · exact isNumeral_of_isDigit (digits d (List.mem_cons_of_mem _ digit))
    · exact numerals d other

/-- A text that starts with a digit has no sign of its own. -/
lemma read_sign_digit {s : List Char} (negative : Bool) (starts : StartsWithDigit s) :
    read f ((if negative then "-" else "").toList ++ s) = readUnsigned f negative s := by
  obtain ⟨c, rest, rfl, digit, -⟩ := starts
  refine read_sign negative (List.cons_ne_nil c rest) ?_ ?_
  · rintro ⟨rfl⟩
    exact absurd digit (by decide)
  · rintro ⟨rfl⟩
    exact absurd digit (by decide)

/-- A layout that starts with a digit is read back with its sign when its decimal rounds to the code. -/
lemma read_textBy {finite : Nat → String} {x : Binary f} (number : x.isNan = false)
    (layout : ∀ code < f.infinity, ∃ literal, DecimalLiteral.read? (finite code).toList = some literal ∧
      f.roundDecimal literal.digits literal.exponent = code)
    (starts : ∀ code, StartsWithDigit (finite code).toList) : read f (textBy finite x).toList = .ok x := by
  cases x with
  | nan => cases number
  | signed negative code =>
    unfold textBy
    rw [String.toList_append]
    by_cases last : code.val = f.infinity
    · rw [if_pos last, read_sign negative (by decide) (by decide) (by decide)]
      have code_eq : code = Fin.last _ := Fin.ext last
      rw [code_eq]
      rfl
    · obtain ⟨literal, read, rounds⟩ := layout code.val (by omega)
      rw [if_neg last, read_sign_digit negative (starts code.val)]
      exact readUnsigned_of_literal negative code read rounds

/-- The text of a number that is not NaN has characters of numbers only. -/
lemma isNumeral_of_mem_textBy {finite : Nat → String} {x : Binary f} (number : x.isNan = false)
    (starts : ∀ code, StartsWithDigit (finite code).toList) {c : Char} (mem : c ∈ (textBy finite x).toList) :
    isNumeral c := by
  cases x with
  | nan => cases number
  | signed negative code =>
    unfold textBy at mem
    rw [String.toList_append] at mem
    rcases List.mem_append.1 mem with sign | magnitude
    · cases negative with
      | true =>
        cases List.mem_singleton.1 sign
        decide
      | false => cases sign
    · split at magnitude
      · have word : ∀ c ∈ "inf".toList, isNumeral c := List.all_eq_true.1 (by decide)
        exact word c magnitude
      · obtain ⟨d, rest, text, digit, numerals⟩ := starts code.val
        rw [text] at magnitude
        rcases List.mem_cons.1 magnitude with rfl | other
        · exact isNumeral_of_isDigit digit
        · exact numerals c other

end Binary

namespace Decimal

open Binary

lemma isNumeral_of_mem_fractionPart {fraction : List Char} (digits : ∀ c ∈ fraction, c.isDigit) {c : Char}
    (mem : c ∈ fractionPart fraction) : isNumeral c := by
  unfold fractionPart at mem
  split at mem
  · cases mem
  · rcases List.mem_cons.1 mem with rfl | digit
    · decide
    · exact isNumeral_of_isDigit (digits c digit)

lemma startsWithDigit_positional (d : Decimal) : StartsWithDigit (d.positional 0).toList := by
  rw [toList_positional]
  obtain ⟨digits, exponent⟩ := d
  cases exponent with
  | ofNat e =>
    refine startsWithDigit_append (digitChars_ne_nil _) (fun c => isDigit_of_mem_digitChars) fun c mem => ?_
    split at mem
    · cases mem
    · rw [(List.mem_replicate.1 mem).2]
      decide
  | negSucc e =>
    have places := length_placedDigits ⟨digits, .negSucc e⟩ (e + 1)
    refine startsWithDigit_append (List.ne_nil_of_length_pos (by rw [List.length_take]; omega))
      (fun c mem => isDigit_of_mem_placedDigits (List.mem_of_mem_take mem)) fun c mem => ?_
    exact isNumeral_of_mem_fractionPart (fun c mem => isDigit_of_mem_placedDigits (List.mem_of_mem_drop mem)) mem

lemma isNumeral_of_mem_toString {i : Int} {c : Char} (mem : c ∈ (toString i).toList) : isNumeral c := by
  cases i with
  | ofNat n =>
    change c ∈ (Nat.repr n).toList at mem
    rw [Nat.toList_repr] at mem
    exact isNumeral_of_isDigit (isDigit_of_mem_toDigits mem)
  | negSucc n =>
    change c ∈ ("-" ++ Nat.repr (n + 1)).toList at mem
    rw [String.toList_append, Nat.toList_repr] at mem
    rcases List.mem_append.1 mem with sign | digit
    · cases List.mem_singleton.1 sign
      decide
    · exact isNumeral_of_isDigit (isDigit_of_mem_toDigits digit)

lemma startsWithDigit_exponential (d : Decimal) : StartsWithDigit d.exponential.toList := by
  have isDigit : ∀ c ∈ d.digitChars, c.isDigit := fun c mem => isDigit_of_mem_digitChars mem
  unfold exponential
  cases chars : d.digitChars with
  | nil => exact absurd chars (digitChars_ne_nil d)
  | cons first rest =>
    rw [chars] at isDigit
    have text : (String.singleton first ++ (if rest.isEmpty then "" else "." ++ String.ofList rest) ++ "e" ++
        toString (d.exponent + rest.length)).toList =
        [first] ++ (fractionPart rest ++ exponentPart (some (toString (d.exponent + rest.length)).toList)) := by
      cases rest <;> simp [fractionPart, exponentPart]
    simp only [text]
    refine startsWithDigit_append (by simp) (fun c mem => isDigit c (List.mem_singleton.1 mem ▸ List.mem_cons_self))
      fun c mem => ?_
    rcases List.mem_append.1 mem with fraction | exponent
    · exact isNumeral_of_mem_fractionPart (fun c mem => isDigit c (List.mem_cons_of_mem _ mem)) fraction
    · rcases List.mem_cons.1 exponent with rfl | other
      · decide
      · exact isNumeral_of_mem_toString other

end Decimal

namespace Binary

variable {f : Format}

lemma startsWithDigit_shortest (code : Nat) :
    StartsWithDigit (if code = 0 then "0" else (f.shortest code).positional 0).toList := by
  split
  · exact ⟨'0', [], rfl, by decide, by simp⟩
  · exact Decimal.startsWithDigit_positional _

lemma startsWithDigit_significant (code : Nat) :
    StartsWithDigit (if code = 0 then "0.00000000e0" else (f.significant 9 code).exponential).toList := by
  split
  · exact ⟨'0', ".00000000e0".toList, rfl, by decide, List.all_eq_true.1 (by decide)⟩
  · exact Decimal.startsWithDigit_exponential _

/-- A positional layout reads as what its decimal rounds to. -/
lemma read?_positional_rounds {d : Decimal} {code : Nat} (pos : 0 < code) (lt : code < f.infinity)
    (rounds : f.roundDecimal d.digits d.exponent = code) :
    ∃ literal, DecimalLiteral.read? (d.positional 0).toList = some literal ∧
      f.roundDecimal literal.digits literal.exponent = code := by
  rw [Decimal.read?_positional]
  obtain ⟨digits, exponent⟩ := d
  -- the exponent decides on the layout: with zeros at the end, or with a point
  cases exponent with
  | ofNat e => exact ⟨_, rfl, Format.roundDecimal_shiftZeros pos lt rounds⟩
  | negSucc e => exact ⟨_, rfl, rounds⟩

/-- A number that is not NaN is read back from its shortest decimal. -/
theorem read_positional {x : Binary f} (number : x.isNan = false) : read f x.positional.toList = .ok x := by
  refine read_textBy number (fun code lt => ?_) startsWithDigit_shortest
  by_cases zero : code = 0
  · rw [if_pos zero]
    exact ⟨⟨0, 0⟩, by decide, by rw [zero]; rfl⟩
  · rw [if_neg zero]
    have pos := Nat.pos_of_ne_zero zero
    exact read?_positional_rounds pos lt (Format.roundDecimal_shortest pos lt)

/-- A number that is not NaN is read back from nine significant digits, if nine are enough for the format. -/
theorem read_scientific {x : Binary f} (number : x.isNan = false) (enough : 2 * 2 ^ f.fractionBits < 10 ^ 8) :
    read f x.scientific.toList = .ok x := by
  refine read_textBy number (fun code lt => ?_) startsWithDigit_significant
  by_cases zero : code = 0
  · rw [if_pos zero]
    exact ⟨⟨0, -8⟩, by decide, by rw [zero]; rfl⟩
  · rw [if_neg zero, Decimal.read?_exponential]
    exact ⟨_, rfl, Format.roundDecimal_significant (Nat.pos_of_ne_zero zero) lt enough⟩

end Binary

end FeatureLines.Number
