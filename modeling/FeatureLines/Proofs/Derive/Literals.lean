import Mathlib.Tactic.IntervalCases
import FeatureLines.Derive.Literal
import FeatureLines.Proofs.Number.Literal

/-!
# Literals stand for what they were written for

The string literal that is written for a text stands for this text, whatever characters it has: every character is read
back from the way it is written inside quotes, one step of the reader for each.
-/

namespace FeatureLines.Derive

open FeatureLines.Text FeatureLines.Json

/-! ## Hexadecimal digits -/

lemma hexValue?_digitChar {d : Nat} (h : d < 16) : hexValue? (Nat.digitChar d) = some d := by
  interval_cases d <;> decide

lemma exists_digitChar_of_mem_toDigits {n : Nat} {c : Char} (mem : c ∈ Nat.toDigits 16 n) :
    ∃ d < 16, c = Nat.digitChar d := by
  induction n using Nat.strongRecOn with
  | ind n ih =>
    rw [Nat.toDigits_eq_if (by decide)] at mem
    split at mem
    case isTrue lt => exact ⟨n, lt, List.mem_singleton.1 mem⟩
    case isFalse ge =>
      rcases List.mem_append.1 mem with mem | mem
      · exact ih _ (by omega) mem
      · exact ⟨n % 16, Nat.mod_lt _ (by decide), List.mem_singleton.1 mem⟩

lemma isHexDigit_of_mem_toDigits {n : Nat} {c : Char} (mem : c ∈ Nat.toDigits 16 n) : isHexDigit c := by
  obtain ⟨d, lt, rfl⟩ := exists_digitChar_of_mem_toDigits mem
  rw [isHexDigit, hexValue?_digitChar lt]
  rfl

/-- A number is the value of its digits. -/
lemma foldlM_toDigits (n : Nat) :
    (Nat.toDigits 16 n).foldlM (fun n d => do return 16 * n + (← hexValue? d)) 0 = some n := by
  induction n using Nat.strongRecOn with
  | ind n ih =>
    rw [Nat.toDigits_eq_if (by decide)]
    split
    case isTrue lt => simp [hexValue?_digitChar lt]
    case isFalse ge =>
      rw [List.foldlM_append, ih _ (by omega)]
      simp [hexValue?_digitChar (Nat.mod_lt n (by decide : 0 < 16))]
      omega

lemma unicodeEscape?_toDigits (c : Char) : unicodeEscape? (Nat.toDigits 16 c.toNat) = some c := by
  have plain (d) (mem : d ∈ Nat.toDigits 16 c.toNat) : d ≠ '_' := by
    rintro rfl
    exact absurd (isHexDigit_of_mem_toDigits mem) (by decide)
  have same : (Nat.toDigits 16 c.toNat).filter (· != '_') = Nat.toDigits 16 c.toNat :=
    List.filter_eq_self.2 fun d mem => by simpa using plain d mem
  have bound : c.toNat < 16 ^ 6 := by
    have valid := c.valid
    unfold Char.toNat
    rcases valid with h | ⟨-, h⟩ <;> omega
  have short : (Nat.toDigits 16 c.toNat).length ≤ 6 := (Nat.length_toDigits_le_iff (by decide) (by decide)).2 bound
  have first : (Nat.toDigits 16 c.toNat).head? ≠ some '_' := fun head => plain _ (List.mem_of_mem_head? head) rfl
  have accepted : ((Nat.toDigits 16 c.toNat).isEmpty || decide (6 < (Nat.toDigits 16 c.toNat).length) ||
      (Nat.toDigits 16 c.toNat).head? == some '_') = false := by
    simp [Nat.toDigits_ne_nil, short, first]
  have valid : c.toNat.isValidChar := c.valid
  unfold unicodeEscape?
  dsimp only
  rw [same, foldlM_toDigits, if_neg (by rw [accepted]; decide), Option.bind_eq_bind, Option.bind_some, dif_pos valid]
  rfl

/-- The escape of a character by its code point. -/
lemma afterUnicode?_codeEscape (c : Char) (rest : List Char) :
    afterUnicode? ('{' :: (Nat.toDigits 16 c.toNat ++ '}' :: rest)) = some (c, rest) := by
  have inside (d) (mem : d ∈ Nat.toDigits 16 c.toNat) : (isHexDigit d || d == '_') = true := by
    rw [isHexDigit_of_mem_toDigits mem, Bool.true_or]
  have stop : ¬(isHexDigit '}' || '}' == '_') = true := by decide
  rw [afterUnicode?, List.dropWhile_append_of_pos inside, List.takeWhile_append_of_pos inside,
    List.dropWhile_cons_of_neg (p := fun d => isHexDigit d || d == '_') stop,
    List.takeWhile_cons_of_neg (p := fun d => isHexDigit d || d == '_') stop, List.append_nil]
  simp only [unicodeEscape?_toDigits]
  rfl

/-! ## String literals -/

/-- The text of a character in a string literal, by what follows it. -/
def literalChar (c : Char) (rest : List Char) : String :=
  if c = '\x00' then if (rest.head?.any fun d => '0' ≤ d && d ≤ '7') then "\\x00" else "\\0" else quotedChar '"' c

/-- A character is read back in one step. -/
lemma unescape_literalChar (c : Char) (rest after : List Char) (fuel : Nat) :
    unescape (fuel + 1) ((literalChar c rest).toList ++ after) = c :: unescape fuel after := by
  unfold literalChar quotedChar
  split
  case isTrue nul =>
    subst nul
    split <;> rfl
  case isFalse nul =>
    -- the characters that have an escape of their own
    split
    case isTrue h => subst h; rfl
    split
    case isTrue h => subst h; rfl
    split
    case isTrue h => subst h; rfl
    split
    case isTrue h => rcases h with rfl | rfl <;> rfl
    case isFalse plain =>
      split
      · rw [String.toList_singleton, List.singleton_append, unescape] <;> simp_all
      · have text : (codeEscape c).toList = '\\' :: 'u' :: '{' :: (Nat.toDigits 16 c.toNat ++ ['}']) := by
          simp [codeEscape, String.toList_append]
        rw [text]
        simp only [List.cons_append, List.append_assoc, List.nil_append, unescape, readEscape?, afterUnicode?_codeEscape]
        simp

/-- Every character is written with some: what is read back from nothing is nothing. -/
lemma length_le_literalChars (cs : List Char) : cs.length ≤ (literalChars cs).toList.length := by
  induction cs with
  | nil => exact Nat.zero_le _
  | cons c cs ih =>
    have text : literalChars (c :: cs) = literalChar c cs ++ literalChars cs := rfl
    have nonempty : (literalChar c cs).toList ≠ [] := fun empty => by
      have read := unescape_literalChar c cs [] 0
      rw [empty] at read
      cases read
    have := List.length_pos_iff.2 nonempty
    rw [text, String.toList_append, List.length_append, List.length_cons]
    omega

/-- The text of a string literal is read back. -/
lemma unescape_literalChars {cs after : List Char} {fuel : Nat} (enough : cs.length < fuel) :
    unescape fuel ((literalChars cs).toList ++ '"' :: after) = cs := by
  induction cs generalizing fuel with
  | nil =>
    cases fuel with
    | zero => cases enough
    | succ fuel => rfl
  | cons c cs ih =>
    cases fuel with
    | zero => cases enough
    | succ fuel =>
      have text : literalChars (c :: cs) = literalChar c cs ++ literalChars cs := rfl
      rw [text, String.toList_append, List.append_assoc, unescape_literalChar, ih (Nat.lt_of_succ_lt_succ enough)]

/-- The literal that is written for a text stands for the text. -/
theorem stringValue?_stringLiteral (s : String) : stringValue? (stringLiteral s) = some s := by
  have shape : (stringLiteral s).toList = '"' :: ((literalChars s.toList).toList ++ ['"']) := by
    simp [stringLiteral, String.toList_append]
  unfold stringValue?
  rw [shape]
  simp only
  rw [unescape_literalChars, String.ofList_toList]
  have := length_le_literalChars s.toList
  simp only [List.length_append, List.length_singleton]
  omega

/-! ## Integer literals -/

lemma hexValue?_of_isDigit {c : Char} (digit : c.isDigit) : hexValue? c = some (c.toNat - 48) ∧ c.toNat - 48 < 10 := by
  simp only [Char.isDigit, Bool.and_eq_true, decide_eq_true_eq] at digit
  have upper : c.toNat ≤ 57 := digit.2
  have range : '0' ≤ c ∧ c ≤ '9' := digit
  exact ⟨by rw [hexValue?, if_pos range], by omega⟩

/-- Digits are read up to a suffix. -/
lemma digitsValue?_append {ds more : List Char} {value : Nat} {isEmpty : Bool} (digits : ∀ c ∈ ds, c.isDigit)
    (nonempty : isEmpty = false ∨ ds ≠ []) :
    digitsValue? 10 value isEmpty (ds ++ 'u' :: more) = some (Nat.ofDigitChars 10 ds value) := by
  induction ds generalizing value isEmpty with
  | nil =>
    obtain rfl : isEmpty = false := nonempty.resolve_right fun h => h rfl
    simp [digitsValue?, hexValue?, Nat.ofDigitChars_eq_foldl]
  | cons d ds ih =>
    have digit := digits d List.mem_cons_self
    obtain ⟨hex, lt⟩ := hexValue?_of_isDigit digit
    have step : Nat.ofDigitChars 10 (d :: ds) value = Nat.ofDigitChars 10 ds (10 * value + (d.toNat - 48)) := by
      simp [Nat.ofDigitChars_eq_foldl]
    have plain : (d == '_') = false ∧ (d == 'e' || d == 'E') = false ∧ (d == '.') = false := by
      refine ⟨?_, ?_, ?_⟩ <;> simp <;> (try constructor) <;> rintro rfl <;> cases digit
    have rest : digitsValue? 10 (10 * value + (d.toNat - 48)) false (ds ++ 'u' :: more) = _ :=
      ih (fun c mem => digits c (List.mem_cons_of_mem _ mem)) (.inl rfl)
    rw [step, ← rest]
    simp [digitsValue?, hex, lt, plain]

/-- The literal that is written for a position stands for it. -/
theorem naturalValue?_usize (n : Nat) : naturalValue? (toString n ++ "usize") = some n := by
  have text : (toString n ++ "usize").toList = Nat.toDigits 10 n ++ 'u' :: "size".toList := by
    rw [String.toList_append, show (toString n).toList = Nat.toDigits 10 n from Nat.toList_repr]
    rfl
  have value : Nat.ofDigitChars 10 (Nat.toDigits 10 n) 0 = n := Nat.ofDigitChars_ten_toDigits
  have digits (c) (mem : c ∈ Nat.toDigits 10 n) : c.isDigit := Number.isDigit_of_mem_toDigits mem
  obtain ⟨d, ds, eq⟩ := List.exists_cons_of_ne_nil (Nat.toDigits_ne_nil (b := 10) (n := n))
  rw [eq] at text value digits
  have read : digitsValue? 10 0 true (d :: ds ++ 'u' :: "size".toList) = some n := by
    rw [digitsValue?_append digits (.inr (List.cons_ne_nil _ _)), value]
  -- behind the first digit there is no letter for a base
  have noBase (c : Char) (base : c ∈ ['x', 'o', 'b']) (rest : List Char) : ds ++ 'u' :: "size".toList ≠ c :: rest := by
    intro same
    cases ds with
    | nil =>
      cases same
      exact absurd base (by decide)
    | cons e ds =>
      obtain rfl : e = c := (List.cons.inj same).1
      have digit := digits e (by simp)
      simp only [List.mem_cons, List.not_mem_nil, or_false] at base
      rcases base with rfl | rfl | rfl <;> cases digit
  unfold naturalValue?
  rw [text, List.cons_append]
  split
  case h_1 rest same => exact (noBase 'x' (by decide) rest (List.cons.inj same).2).elim
  case h_2 rest same => exact (noBase 'o' (by decide) rest (List.cons.inj same).2).elim
  case h_3 rest same => exact (noBase 'b' (by decide) rest (List.cons.inj same).2).elim
  case h_4 c rest same =>
    cases same
    rw [if_pos (digits d List.mem_cons_self)]
    exact read
  case h_5 same => cases same

end FeatureLines.Derive
