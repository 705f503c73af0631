import FeatureLines.Proofs.Text.Pieces

/-!
# Words and the blanks between them

How a text is put together, said without the functions that cut it: of words with blanks between them (`Spaced`), of a
text with blanks around it (`Padded`), and of pieces with a bar between any two (`Barred`). Each of these has exactly
one inverse, and the functions compute it: `spaced_iff`, `padded_iff` and `barred_iff`.
-/

namespace FeatureLines.Text

variable {s t gap : List Char}

/-- Blanks, or nothing. -/
def IsGap (gap : List Char) : Prop := ∀ c ∈ gap, isBlank c = true

/-- Characters that are not blank, at least one. -/
def IsWord (word : List Char) : Prop := word ≠ [] ∧ ∀ c ∈ word, isBlank c = false

/-- A text that no word goes on into: it is empty or begins with a blank. -/
def Ends (s : List Char) : Prop := ∀ c ∈ s.head?, isBlank c = true

/-- A text consists of words and of the blanks before, between and after them. -/
inductive Spaced : List (List Char) → List Char → Prop
  | gap {gap : List Char} (blank : IsGap gap) : Spaced [] gap
  | word {gap word rest : List Char} {words : List (List Char)} (blank : IsGap gap) (isWord : IsWord word)
      (ends : Ends rest) (others : Spaced words rest) : Spaced (word :: words) (gap ++ (word ++ rest))

/-- A text has blanks around its core, which neither begins nor ends with one. -/
inductive Padded (core : List Char) : List Char → Prop
  | intro {before after : List Char} (front : IsGap before) (back : IsGap after)
      (begins : ∀ c ∈ core.head?, isBlank c = false) (stops : ∀ c ∈ core.getLast?, isBlank c = false) :
      Padded core (before ++ (core ++ after))

/-- A text consists of a first piece and of others, each behind a bar. -/
structure Barred (first : List Char) (others : List (List Char)) (s : List Char) : Prop where
  joined : s = first ++ others.flatMap ('|' :: ·)
  nobar : ∀ piece ∈ first :: others, '|' ∉ piece

/-! ## Words -/

/-- Blanks in front of a text make no difference to its words. -/
lemma words_append_of_isGap (blank : IsGap gap) (s : List Char) : words (gap ++ s) = words s := by
  induction gap with
  | nil => rfl
  | cons c gap ih =>
    obtain ⟨first, others⟩ := List.forall_mem_cons.1 blank
    rw [List.cons_append, ← List.nil_append (c :: _), words_append_cons first, words_nil, List.nil_append, ih others]

/-- A word that does not go on is the first one. -/
lemma words_append_of_ends {word : List Char} (isWord : IsWord word) (ends : Ends t) :
    words (word ++ t) = word :: words t := by
  have alone := words_of_forall_not_isBlank isWord.1 isWord.2
  cases t with
  | nil => rw [List.append_nil, alone, words_nil]
  | cons c t =>
    have blank : isBlank c = true := ends c rfl
    rw [words_append_cons blank, alone, ← List.nil_append (c :: t), words_append_cons blank]
    rfl

/-- The words of a spaced text are those that were spaced. -/
lemma Spaced.words_eq {ws : List (List Char)} (spaced : Spaced ws s) : words s = ws := by
  induction spaced with
  | gap blank =>
    have none := words_append_of_isGap blank []
    rwa [List.append_nil, words_nil] at none
  | word blank isWord ends others ih => rw [words_append_of_isGap blank, words_append_of_ends isWord ends, ih]

lemma isGap_takeWhile (s : List Char) : IsGap (s.takeWhile isBlank) := fun _ mem => List.mem_takeWhile_imp mem

lemma not_isBlank_of_mem_takeWhile {c : Char} (mem : c ∈ s.takeWhile (!isBlank ·)) : isBlank c = false := by
  simpa using List.mem_takeWhile_imp mem

/-- What is left of a text behind the first characters that are not blank goes on with a blank. -/
lemma ends_dropWhile (s : List Char) : Ends (s.dropWhile (!isBlank ·)) := by
  intro c mem
  have stop := List.head?_dropWhile_not (!isBlank ·) s
  rw [Option.mem_def.1 mem] at stop
  simpa using stop

/-- A text is put together from its words. -/
lemma spaced_words (s : List Char) : Spaced (words s) s := by
  have cut := List.takeWhile_append_dropWhile (p := isBlank) (l := s)
  cases rest : s.dropWhile isBlank with
  | nil =>
    rw [rest, List.append_nil] at cut
    have blank : IsGap s := cut ▸ isGap_takeWhile s
    have none := words_append_of_isGap blank []
    rw [List.append_nil, words_nil] at none
    rw [none]
    exact .gap blank
  | cons c t =>
    have nonblank : isBlank c = false := by
      have stop := List.head?_dropWhile_not isBlank s
      rw [rest] at stop
      simpa using stop
    have isWord : IsWord ((c :: t).takeWhile (!isBlank ·)) := by
      refine ⟨?_, fun d mem => not_isBlank_of_mem_takeWhile mem⟩
      rw [List.takeWhile_cons_of_pos (by simp [nonblank])]
      exact List.cons_ne_nil _ _
    have shorter : ((c :: t).dropWhile (!isBlank ·)).length < s.length := by
      have front : s.takeWhile isBlank ++ ((c :: t).takeWhile (!isBlank ·) ++ (c :: t).dropWhile (!isBlank ·)) = s := by
        rw [List.takeWhile_append_dropWhile, ← rest, cut]
      have lengths := congrArg List.length front
      rw [List.length_append, List.length_append] at lengths
      have some := List.length_pos_of_ne_nil isWord.1
      omega
    have others := spaced_words ((c :: t).dropWhile (!isBlank ·))
    have whole := Spaced.word (isGap_takeWhile s) isWord (ends_dropWhile _) others
    rw [List.takeWhile_append_dropWhile, ← rest, cut] at whole
    rwa [← whole.words_eq] at whole
termination_by s.length

/-- The words of a text are the only ones that it is put together from. -/
theorem spaced_iff {ws : List (List Char)} : Spaced ws s ↔ ws = words s :=
  ⟨fun spaced => spaced.words_eq.symm, fun same => same ▸ spaced_words s⟩

/-! ## Trimming -/

/-- A gap at the front is dropped. -/
lemma dropWhile_append_of_isGap (blank : IsGap gap) (s : List Char) :
    (gap ++ s).dropWhile isBlank = s.dropWhile isBlank := List.dropWhile_append_of_pos blank

lemma IsGap.reverse (blank : IsGap gap) : IsGap gap.reverse := fun c mem => blank c (List.mem_reverse.1 mem)

/-- A text that begins with no blank has none dropped. -/
lemma dropWhile_of_head? (begins : ∀ c ∈ s.head?, isBlank c = false) : s.dropWhile isBlank = s := by
  cases s with
  | nil => rfl
  | cons c s => rw [List.dropWhile_cons_of_neg (by simp [begins c rfl])]

/-- Trimming takes off the padding. -/
lemma Padded.trim_eq {core : List Char} (padded : Padded core s) : trim s = core := by
  obtain ⟨front, back, begins, stops⟩ := padded
  rename_i before after
  have ends : (core.reverse).dropWhile isBlank = core.reverse := by
    refine dropWhile_of_head? fun c mem => stops c ?_
    rwa [List.head?_reverse] at mem
  unfold trim trimEnd
  rw [dropWhile_append_of_isGap front]
  cases core with
  | nil =>
    have none : after.dropWhile isBlank = [] := List.dropWhile_eq_nil_iff.2 back
    rw [List.nil_append, none]
    rfl
  | cons c core =>
    have starts : (c :: core ++ after).dropWhile isBlank = c :: core ++ after :=
      dropWhile_of_head? fun d mem => begins d mem
    rw [starts, List.reverse_append, dropWhile_append_of_isGap back.reverse, ends, List.reverse_reverse]

/-- A text has blanks around what trimming leaves of it. -/
lemma padded_trim (s : List Char) : Padded (trim s) s := by
  have front := List.takeWhile_append_dropWhile (p := isBlank) (l := s)
  have back : trim s ++ (s.dropWhile isBlank).rtakeWhile isBlank = s.dropWhile isBlank :=
    List.rdropWhile_append_rtakeWhile
  have whole : Padded (trim s) (s.takeWhile isBlank ++ (trim s ++ (s.dropWhile isBlank).rtakeWhile isBlank)) := by
    refine .intro (isGap_takeWhile s) (fun c mem => List.mem_rtakeWhile_imp mem) (fun c mem => ?_) (fun c mem => ?_)
    · have stop := List.head?_dropWhile_not isBlank s
      rw [← back, List.head?_append, Option.mem_def.1 mem] at stop
      simpa using stop
    · have stop := List.head?_dropWhile_not isBlank (s.dropWhile isBlank).reverse
      rw [trim, trimEnd, List.getLast?_reverse] at mem
      rw [Option.mem_def.1 mem] at stop
      simpa using stop
  rwa [back, front] at whole

/-- Trimming gives the only core of a text. -/
theorem padded_iff {core : List Char} : Padded core s ↔ core = trim s :=
  ⟨fun padded => padded.trim_eq.symm, fun same => same ▸ padded_trim s⟩

/-! ## Bars -/

/-- A barred text is split into what stood between the bars. -/
lemma Barred.split_eq {first : List Char} {others : List (List Char)} (barred : Barred first others s) :
    split (· == '|') s = first :: others := by
  obtain ⟨rfl, nobar⟩ := barred
  induction others generalizing first with
  | nil =>
    rw [List.flatMap_nil, List.append_nil]
    exact split_of_forall_not fun c mem => by
      simp only [beq_eq_false_iff_ne, ne_eq]
      rintro rfl
      exact nobar first List.mem_cons_self mem
  | cons piece others ih =>
    obtain ⟨own, rest⟩ := List.forall_mem_cons.1 nobar
    have one : split (· == '|') first = [first] := split_of_forall_not fun c mem => by
      simp only [beq_eq_false_iff_ne, ne_eq]
      rintro rfl
      exact own mem
    rw [List.flatMap_cons, List.cons_append, split_append_cons (by decide), one, ih rest, List.singleton_append]

/-- A text is put together from its pieces. -/
lemma barred_split (s : List Char) : Barred ((split (· == '|') s).headD []) (split (· == '|') s).tail s := by
  obtain ⟨first, others, pieces⟩ := exists_split_eq_cons (· == '|') s
  have nobar : ∀ piece ∈ first :: others, '|' ∉ piece := fun piece mem bar =>
    absurd (not_of_mem_split (pieces ▸ mem) _ bar) (by decide)
  rw [pieces]
  refine ⟨?_, nobar⟩
  clear nobar
  rw [List.headD_cons, List.tail_cons]
  induction s generalizing first others with
  | nil =>
    cases pieces
    rfl
  | cons c s ih =>
    obtain ⟨next, rest, later⟩ := exists_split_eq_cons (· == '|') s
    have joined := ih next rest later
    cases bar : c == '|' with
    | true =>
      rw [split_cons_of_sep (p := (· == '|')) bar, later] at pieces
      obtain ⟨rfl, rfl⟩ := List.cons.inj pieces
      rw [joined, eq_of_beq bar]
      rfl
    | false =>
      rw [split_cons_of_not (p := (· == '|')) bar later] at pieces
      obtain ⟨rfl, rfl⟩ := List.cons.inj pieces
      rw [joined]
      rfl

/-- Cutting at the bars gives the only pieces of a text. -/
theorem barred_iff {first : List Char} {others : List (List Char)} :
    Barred first others s ↔ first = (split (· == '|') s).headD [] ∧ others = (split (· == '|') s).tail := by
  constructor
  · intro barred
    rw [barred.split_eq]
    exact ⟨rfl, rfl⟩
  · rintro ⟨rfl, rfl⟩
    exact barred_split s

end FeatureLines.Text
