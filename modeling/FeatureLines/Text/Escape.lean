import FeatureLines.Text.Blank

/-!
# Escaping

A name may stand in a text line only if it holds no blank, no `|` and no `:`. `escape` replaces each of these by `_` and
leaves every other character alone, so an escaped name is always safe (`not_needsEscape_of_mem_escape`) and escaping
twice is escaping once.
-/

namespace FeatureLines.Text

/-- The characters that would break the line structure: blanks, `|` and `:`. -/
def needsEscape (c : Char) : Bool := isBlank c || c == '|' || c == ':'

/-- Replaces a character that would break the line structure by `_`. -/
def escapeChar (c : Char) : Char := if needsEscape c then '_' else c

/-- Replaces every character that would break the line structure by `_`. -/
def escape (s : String) : String := String.ofList (s.toList.map escapeChar)

/-- Whether escaping leaves the text as it is. -/
def isSafe (s : String) : Bool := s.toList.all (!needsEscape ·)

theorem needsEscape_escapeChar (c : Char) : needsEscape (escapeChar c) = false := by
  unfold escapeChar
  split
  · decide
  · exact Bool.eq_false_iff.2 ‹_›

@[simp] theorem toList_escape (s : String) : (escape s).toList = s.toList.map escapeChar := by
  simp [escape]

theorem not_needsEscape_of_mem_escape {s : String} {c : Char} (h : c ∈ (escape s).toList) : needsEscape c = false := by
  simp only [toList_escape, List.mem_map] at h
  obtain ⟨d, -, rfl⟩ := h
  exact needsEscape_escapeChar d

theorem escapeChar_of_not_needsEscape {c : Char} (h : needsEscape c = false) : escapeChar c = c := by
  simp [escapeChar, h]

theorem escape_escape (s : String) : escape (escape s) = escape s := by
  simp only [escape, String.toList_ofList, List.map_map]
  congr 1
  exact List.map_congr_left fun c _ => escapeChar_of_not_needsEscape (needsEscape_escapeChar c)

end FeatureLines.Text
