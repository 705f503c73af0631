/-!
# Blanks, words and pieces

What counts as white space in a text line, and the ways a line is cut: `trim` takes blanks off both ends, `split` cuts
at every separator and keeps empty pieces, `words` keeps the maximal runs of characters that are not blank, and
`splitAtLast` cuts once at the last separator. All of them work on `List Char`, where cutting is recursion on the data.

`split_ne_nil` says that a split has at least one piece, and `not_isBlank_of_mem_words` that words hold no blanks.
-/

namespace FeatureLines.Text

/-- A character is blank when Unicode gives it the property `White_Space`. -/
def isBlank (c : Char) : Bool :=
  let n := c.toNat
  (0x09 ≤ n && n ≤ 0x0D) || n == 0x20 || n == 0x85 || n == 0xA0 || n == 0x1680 || (0x2000 ≤ n && n ≤ 0x200A) ||
    n == 0x2028 || n == 0x2029 || n == 0x202F || n == 0x205F || n == 0x3000

/-- Takes the blanks off the end. -/
def trimEnd (s : List Char) : List Char := (s.reverse.dropWhile isBlank).reverse

/-- Takes the blanks off both ends. -/
def trim (s : List Char) : List Char := trimEnd (s.dropWhile isBlank)

/-- Cuts at every character that satisfies `p`; the pieces between neighbouring separators are empty. -/
def split (p : Char → Bool) : List Char → List (List Char)
  | [] => [[]]
  | c :: rest =>
    if p c then [] :: split p rest
    else
      match split p rest with
      | [] => [[c]]
      | piece :: pieces => (c :: piece) :: pieces

/-- The maximal runs of characters that are not blank, in order. -/
def words (s : List Char) : List (List Char) := (split isBlank s).filter (fun w => !w.isEmpty)

/-- The text before and after the last `c`, when there is one. -/
def splitAtLast (c : Char) (s : List Char) : Option (List Char × List Char) :=
  match s.reverse.dropWhile (· != c) with
  | [] => none
  | _ :: before => some (before.reverse, (s.reverse.takeWhile (· != c)).reverse)

theorem split_ne_nil (p : Char → Bool) (s : List Char) : split p s ≠ [] := by
  cases s with
  | nil => simp [split]
  | cons c rest =>
    simp only [split]
    split
    · simp
    · split <;> simp

/-- No piece of a split holds a separator. -/
theorem not_of_mem_split {p : Char → Bool} {s piece : List Char} (h : piece ∈ split p s) : ∀ c ∈ piece, p c = false := by
  induction s generalizing piece with
  | nil => simp_all [split]
  | cons c rest ih =>
    simp only [split] at h
    split at h
    · rcases List.mem_cons.1 h with rfl | h
      · simp
      · exact ih h
    · rename_i hc
      split at h
      · simp_all
      · rename_i head tail heq
        rcases List.mem_cons.1 h with rfl | h
        · intro d hd
          rcases List.mem_cons.1 hd with rfl | hd
          · simpa using hc
          · exact ih (heq ▸ List.mem_cons_self) d hd
        · exact ih (heq ▸ List.mem_cons_of_mem _ h)

theorem not_isBlank_of_mem_words {s w : List Char} (h : w ∈ words s) : ∀ c ∈ w, isBlank c = false :=
  not_of_mem_split (List.mem_filter.1 h).1

theorem ne_nil_of_mem_words {s w : List Char} (h : w ∈ words s) : w ≠ [] := by
  rintro rfl
  simpa using (List.mem_filter.1 h).2

end FeatureLines.Text
