import Mathlib.Data.List.DropRight
import FeatureLines.Text.Blank

/-!
# Cutting texts that were put together

How `split`, `words`, `trim` and `splitAtLast` act on a text that another one was appended to. Everything about words
follows from `split_append_cons`, the equation for a separator between two texts; `split_intercalate` is its form for a
list of texts.
-/

namespace FeatureLines.Text

variable {p : Char → Bool} {s t : List Char} {c : Char}

@[simp] lemma split_nil : split p [] = [[]] := rfl

/-- A separator at the front cuts off an empty piece. -/
lemma split_cons_of_sep (sep : p c = true) : split p (c :: s) = [] :: split p s := by
  rw [split, if_pos sep]

/-- A character that is no separator goes to the first piece. -/
lemma split_cons_of_not (nosep : p c = false) {first : List Char} {rest : List (List Char)}
    (pieces : split p s = first :: rest) : split p (c :: s) = (c :: first) :: rest := by
  rw [split, if_neg (by simp [nosep]), pieces]

/-- There is a first piece. -/
lemma exists_split_eq_cons (p : Char → Bool) (s : List Char) : ∃ first rest, split p s = first :: rest :=
  List.exists_cons_of_ne_nil (split_ne_nil p s)

/-- A separator cuts a text into what is before it and what is after it. -/
lemma split_append_cons (sep : p c = true) (s t : List Char) : split p (s ++ c :: t) = split p s ++ split p t := by
  induction s with
  | nil => rw [List.nil_append, split_cons_of_sep sep, split_nil, List.singleton_append]
  | cons d s ih =>
    rw [List.cons_append]
    cases hd : p d with
    | true => rw [split_cons_of_sep hd, split_cons_of_sep hd, ih, List.cons_append]
    | false =>
      obtain ⟨first, rest, pieces⟩ := exists_split_eq_cons p s
      rw [pieces, List.cons_append] at ih
      rw [split_cons_of_not hd ih, split_cons_of_not hd pieces, List.cons_append]

/-- A text without separators is one piece. -/
lemma split_of_forall_not (nosep : ∀ c ∈ s, p c = false) : split p s = [s] := by
  induction s with
  | nil => rfl
  | cons c s ih =>
    exact split_cons_of_not (nosep c List.mem_cons_self) (ih fun d mem => nosep d (List.mem_cons_of_mem c mem))

/-- A text without separators goes to the last piece. -/
lemma split_append_of_forall_not (s : List Char) (nosep : ∀ c ∈ t, p c = false) :
    ∃ pieces last, split p s = pieces ++ [last] ∧ split p (s ++ t) = pieces ++ [last ++ t] := by
  induction s with
  | nil => exact ⟨[], [], rfl, split_of_forall_not nosep⟩
  | cons d s ih =>
    obtain ⟨pieces, last, before, after⟩ := ih
    cases hd : p d with
    | true => exact ⟨[] :: pieces, last, by rw [split_cons_of_sep hd, before]; rfl,
        by rw [List.cons_append, split_cons_of_sep hd, after]; rfl⟩
    | false =>
      cases pieces with
      | nil => exact ⟨[], d :: last, split_cons_of_not hd before, split_cons_of_not hd after⟩
      | cons first pieces =>
        exact ⟨(d :: first) :: pieces, last, split_cons_of_not hd before, split_cons_of_not hd after⟩

/-- A character is a separator or belongs to a piece. -/
lemma mem_split_of_mem (mem : c ∈ s) : p c = true ∨ ∃ piece ∈ split p s, c ∈ piece := by
  induction s with
  | nil => cases mem
  | cons d s ih =>
    cases hd : p d with
    | true =>
      rcases List.mem_cons.1 mem with rfl | mem
      · exact .inl hd
      · refine (ih mem).imp_right fun ⟨piece, found, holds⟩ => ⟨piece, ?_, holds⟩
        rw [split_cons_of_sep hd]
        exact List.mem_cons_of_mem _ found
    | false =>
      obtain ⟨first, rest, pieces⟩ := exists_split_eq_cons p s
      rw [split_cons_of_not hd pieces]
      rcases List.mem_cons.1 mem with rfl | mem
      · exact .inr ⟨c :: first, List.mem_cons_self, List.mem_cons_self⟩
      · refine (ih mem).imp_right fun ⟨piece, found, holds⟩ => ?_
        rw [pieces] at found
        rcases List.mem_cons.1 found with rfl | found
        · exact ⟨d :: piece, List.mem_cons_self, List.mem_cons_of_mem d holds⟩
        · exact ⟨piece, List.mem_cons_of_mem _ found, holds⟩

/-- A text is cut into one piece more than it has separators. -/
lemma length_split (p : Char → Bool) (s : List Char) : (split p s).length = s.countP p + 1 := by
  induction s with
  | nil => rfl
  | cons c s ih =>
    cases hc : p c with
    | true => rw [split_cons_of_sep hc, List.length_cons, ih, List.countP_cons_of_pos hc]
    | false =>
      obtain ⟨first, rest, pieces⟩ := exists_split_eq_cons p s
      rw [pieces] at ih
      rw [split_cons_of_not hc pieces, List.countP_cons_of_neg (by simp [hc]), ← ih, List.length_cons, List.length_cons]

/-- Texts that were joined are cut where each of them is, and between them. -/
lemma split_intercalate_eq_flatMap {texts : List String} (ne : texts ≠ []) :
    split (· == '\n') ("\n".intercalate texts).toList = texts.flatMap fun text => split (· == '\n') text.toList := by
  rw [String.toList_intercalate]
  induction texts with
  | nil => exact absurd rfl ne
  | cons text texts ih =>
    cases texts with
    | nil => simp
    | cons next texts =>
      have rest := ih (List.cons_ne_nil _ _)
      have cut := split_append_cons (p := (· == '\n')) (c := '\n') (by decide) text.toList
        (List.intercalate "\n".toList ((next :: texts).map String.toList))
      rw [rest] at cut
      simpa using cut

/-- Texts without separators that were joined are cut into the texts. -/
lemma split_intercalate {texts : List String} (ne : texts ≠ []) (nosep : ∀ text ∈ texts, ∀ c ∈ text.toList, c ≠ '\n') :
    split (· == '\n') ("\n".intercalate texts).toList = texts.map String.toList := by
  have line : ∀ text ∈ texts, split (· == '\n') text.toList = [text.toList] := fun text mem =>
    split_of_forall_not fun c found => by simpa using nosep text mem c found
  rw [split_intercalate_eq_flatMap ne, List.flatMap_congr line, List.map_eq_flatMap]

/-! ## Words -/

@[simp] lemma words_nil : words [] = [] := rfl

/-- Words do not reach over a blank. -/
lemma words_append_cons (blank : isBlank c = true) (s t : List Char) : words (s ++ c :: t) = words s ++ words t := by
  unfold words
  rw [split_append_cons blank, List.filter_append]

/-- A blank at the end makes no word. -/
lemma words_append_blank (blank : isBlank c = true) (s : List Char) : words (s ++ [c]) = words s := by
  rw [words_append_cons blank, words_nil, List.append_nil]

/-- A text without blanks that is not empty is one word. -/
lemma words_of_forall_not_isBlank (ne : s ≠ []) (nonblank : ∀ c ∈ s, isBlank c = false) : words s = [s] := by
  unfold words
  rw [split_of_forall_not nonblank]
  simp [ne]

/-- A character is blank or belongs to a word. -/
lemma mem_words_of_mem (mem : c ∈ s) : isBlank c = true ∨ ∃ word ∈ words s, c ∈ word := by
  refine (mem_split_of_mem mem).imp_right fun ⟨piece, found, holds⟩ => ⟨piece, ?_, holds⟩
  exact List.mem_filter.2 ⟨found, by cases piece with | nil => cases holds | cons => rfl⟩

/-! ## Trimming -/

lemma trim_eq (s : List Char) : trim s = (s.dropWhile isBlank).rdropWhile isBlank := rfl

/-- Trimming adds nothing. -/
lemma mem_of_mem_trim (mem : c ∈ trim s) : c ∈ s :=
  (List.dropWhile_sublist _).mem ((List.rdropWhile_prefix _ _).sublist.mem mem)

/-- A blank at the end is trimmed. -/
lemma trim_append_blank (blank : isBlank c = true) (s : List Char) : trim (s ++ [c]) = trim s := by
  rw [trim_eq, trim_eq, List.dropWhile_append]
  split
  · rename_i blanks
    rw [List.isEmpty_iff.1 blanks, List.dropWhile_cons_of_pos blank]
    rfl
  · rw [List.rdropWhile_concat_pos _ _ _ blank]

/-- Trimming leaves a text that does not start with a blank and does not end with one. -/
lemma trim_trim (s : List Char) : trim (trim s) = trim s := by
  have starts : (trim s).dropWhile isBlank = trim s := by
    rw [trim_eq, List.dropWhile_eq_self_iff]
    intro long
    have kept := List.rdropWhile_prefix isBlank (s.dropWhile isBlank)
    have nonblank := List.dropWhile_get_zero_not isBlank s (lt_of_lt_of_le long kept.length_le)
    rwa [kept.getElem long]
  rw [trim_eq (trim s), starts, trim_eq, List.rdropWhile_idempotent]

/-! ## Cutting once -/

/-- The last separator is the one before a text without any. -/
lemma splitAtLast_append_cons (s : List Char) (nosep : c ∉ t) : splitAtLast c (s ++ c :: t) = some (s, t) := by
  have other : ∀ d ∈ t.reverse, (d != c) = true := fun d mem => by
    simp only [bne_iff_ne, ne_eq]
    rintro rfl
    exact nosep (List.mem_reverse.1 mem)
  unfold splitAtLast
  rw [List.reverse_append, List.reverse_cons, List.append_assoc, List.dropWhile_append_of_pos other,
    List.takeWhile_append_of_pos other]
  simp

/-- A text is not cut at a character that it does not have. -/
lemma splitAtLast_of_not_mem (nosep : c ∉ s) : splitAtLast c s = none := by
  have other : ∀ d ∈ s.reverse, (d != c) = true := fun d mem => by
    simp only [bne_iff_ne, ne_eq]
    rintro rfl
    exact nosep (List.mem_reverse.1 mem)
  unfold splitAtLast
  rw [List.dropWhile_eq_nil_iff.2 other]

end FeatureLines.Text
