import FeatureLines.Line
import FeatureLines.Proofs.Label

/-!
# Reading lines that grow

How reading a line changes when the line grows at its end. `Line.build` is reading without the final step; it ignores a
space at the end (`build_append_space`) and goes on with the segment after a new bar (`build_append_bar`). Inside a
segment, `Line.openSegment` is what was built before the segment is closed, and it goes on with a new word
(`openSegment_append_word`). What a whole segment leaves of the builder before it is `openSegment_spec`.
-/

namespace FeatureLines

open Number Text

namespace Builder

@[simp] lemma current_closeNamespace (b : Builder) : b.closeNamespace.1.current = none := by
  unfold closeNamespace
  split
  · assumption
  · rfl

/-- Nothing is closed when nothing is open. -/
lemma closeNamespace_of_current_eq_none {b : Builder} (closed : b.current = none) : b.closeNamespace.1 = b := by
  unfold closeNamespace
  rw [closed]

end Builder

namespace Line

variable {engine : Engine} {b b' : Builder} {line segment word : List Char}

/-! ## Words -/

/-- Words are added one after the other, up to the first that cannot be read. -/
lemma addWords_append (engine : Engine) (space : UInt64) (b : Builder) (ws ws' : List (List Char)) :
    addWords engine space b (ws ++ ws') = addWords engine space b ws >>= (addWords engine space · ws') := by
  induction ws generalizing b with
  | nil => rfl
  | cons word ws ih =>
    rw [List.cons_append, addWords, addWords, bind_assoc]
    exact congrArg _ (funext fun token => ih _)

/-- A word that is read as a feature adds the feature. -/
lemma addWords_singleton {token : Token} {space : UInt64} (b : Builder) (read : Token.read word = .ok token)
    (kept : token.isKept = true) :
    addWords engine space b [word] =
      .ok (b.addFeature (engine.hashFeature (String.ofList token.name) space) token.weight) := by
  rw [addWords, read]
  change addWords engine space (if token.isKept = true then _ else b) [] = _
  rw [if_pos kept, addWords]

/-- Words only add features to the open namespace. -/
lemma addWords_spec {space : UInt64} {n : HashedNamespace} {ws : List (List Char)} (current : b.current = some n)
    (ok : addWords engine space b ws = .ok b') :
    ∃ features, b' = { b with current := some { n with features := n.features ++ features } } := by
  induction ws generalizing b n with
  | nil =>
    cases ok
    refine ⟨[], ?_⟩
    cases b'
    cases current
    simp
  | cons word ws ih =>
    obtain ⟨token, -, rest⟩ := Except.bind_eq_ok.1 ok
    split at rest
    · obtain ⟨features, rfl⟩ := ih (by rw [Builder.addFeature, current]; rfl) rest
      exact ⟨_, by simp only [List.append_assoc]; rfl⟩
    · exact ih current rest

/-! ## Segments -/

def nameOf (segment : List Char) : List Char := segment.takeWhile (!isBlank ·)

/-- What a segment builds before it is closed. -/
def openSegment (engine : Engine) (b : Builder) (segment : List Char) : Except Error Builder :=
  addWords engine (engine.hashSpace (String.ofList (nameOf segment)))
    (b.openNamespace (indexOf (nameOf segment)) (engine.hashSpace (String.ofList (nameOf segment))))
    (words (segment.dropWhile (!isBlank ·)))

/-- A segment is added by opening it, adding its words and closing it. -/
lemma addSegment_eq_map (engine : Engine) (b : Builder) (segment : List Char) :
    addSegment engine b segment = (openSegment engine b segment).map (·.closeNamespace.1) := by
  change openSegment engine b segment >>= _ = _
  cases openSegment engine b segment <;> rfl

lemma nameOf_of_forall_not_isBlank (nonblank : ∀ c ∈ segment, isBlank c = false) : nameOf segment = segment := by
  rw [nameOf, List.takeWhile_eq_self_iff]
  exact fun c mem => by rw [nonblank c mem]; rfl

/-- The name of a segment ends before the first blank. -/
lemma nameOf_append_space (segment rest : List Char) : nameOf (segment ++ ' ' :: rest) = nameOf segment := by
  unfold nameOf
  rw [List.takeWhile_append, List.takeWhile_cons_of_neg (by decide)]
  split
  · rename_i whole
    rw [List.append_nil]
    exact ((List.takeWhile_prefix _).eq_of_length whole).symm
  · rfl

/-- A space at the end goes to the words of a segment, not to its name. -/
lemma body_append_space (segment rest : List Char) :
    (segment ++ ' ' :: rest).dropWhile (!isBlank ·) = segment.dropWhile (!isBlank ·) ++ ' ' :: rest := by
  rw [List.dropWhile_append]
  split
  · rename_i whole
    rw [List.dropWhile_cons_of_neg (by decide), List.isEmpty_iff.1 whole]
    rfl
  · rfl

/-- A segment without blanks is a name without words. -/
lemma openSegment_of_forall_not_isBlank (b : Builder) (nonblank : ∀ c ∈ segment, isBlank c = false) :
    openSegment engine b segment =
      .ok (b.openNamespace (indexOf segment) (engine.hashSpace (String.ofList segment))) := by
  have body : segment.dropWhile (!isBlank ·) = [] :=
    List.dropWhile_eq_nil_iff.2 fun c mem => by rw [nonblank c mem]; rfl
  rw [openSegment, nameOf_of_forall_not_isBlank nonblank, body]
  rfl

/-- A new word goes on from what the segment before it built. -/
lemma openSegment_append_word (b : Builder) (ne : word ≠ []) (nonblank : ∀ c ∈ word, isBlank c = false) :
    openSegment engine b (segment ++ ' ' :: word) =
      openSegment engine b segment >>= (addWords engine (engine.hashSpace (String.ofList (nameOf segment))) · [word]) := by
  rw [openSegment, nameOf_append_space, body_append_space, words_append_cons (by decide),
    words_of_forall_not_isBlank ne nonblank, addWords_append]
  rfl

/-- A space at the end of a segment does not count. -/
lemma addSegment_append_space (engine : Engine) (b : Builder) (segment : List Char) :
    addSegment engine b (segment ++ [' ']) = addSegment engine b segment := by
  rw [addSegment_eq_map, addSegment_eq_map, openSegment, nameOf_append_space, body_append_space,
    words_append_blank (by decide)]
  rfl

/-- A segment only adds its own namespace to what was closed before. -/
lemma openSegment_spec (closed : b.current = none) (ok : openSegment engine b segment = .ok b') :
    ∃ features, b' = { b with
      current := some ⟨indexOf (nameOf segment), engine.hashSpace (String.ofList (nameOf segment)), features⟩ } := by
  obtain ⟨features, rfl⟩ := addWords_spec rfl ok
  refine ⟨features, ?_⟩
  rw [Builder.openNamespace, Builder.closeNamespace_of_current_eq_none closed]
  rfl

/-- A segment without features leaves nothing behind. -/
lemma closeNamespace_of_openSegment (closed : b.current = none) (ok : openSegment engine b segment = .ok b')
    (empty : b'.closeNamespace.2 = 0) : b'.closeNamespace.1 = b := by
  obtain ⟨features, rfl⟩ := openSegment_spec closed ok
  have none : features = [] := List.length_eq_zero_iff.1 empty
  subst none
  cases b
  cases closed
  rfl

/-- Segments are added one after the other, up to the first that cannot be read. -/
lemma addSegments_append (engine : Engine) (b : Builder) (segments segments' : List (List Char)) :
    addSegments engine b (segments ++ segments') = addSegments engine b segments >>= (addSegments engine · segments') := by
  induction segments generalizing b with
  | nil => rfl
  | cons segment segments ih =>
    rw [List.cons_append, addSegments, addSegments, bind_assoc]
    exact congrArg _ (funext fun b => ih b)

lemma addSegments_singleton (engine : Engine) (b : Builder) (segment : List Char) :
    addSegments engine b [segment] = addSegment engine b segment := by
  change addSegment engine b segment >>= pure = _
  exact bind_pure _

/-! ## Lines -/

/-- What reading a line has built before the example is finished. -/
def build (engine : Engine) (line : List Char) : Except Error Builder := do
  let b ← addHead engine (.ofExample engine.newExample) ((split (· == '|') line).headD [])
  addSegments engine b (split (· == '|') line).tail

/-- A line that is built is read as what has been built. -/
lemma read_of_build (ok : build engine line = .ok b) : read engine line = .ok b.finish := by
  obtain ⟨head, first, rest⟩ := Except.bind_eq_ok.1 ok
  exact Except.bind_eq_ok.2 ⟨head, first, Except.bind_eq_ok.2 ⟨b, rest, rfl⟩⟩

/-- A line without bars is a head. -/
lemma build_of_forall_ne_bar (nobar : ∀ c ∈ line, c ≠ '|') :
    build engine line = addHead engine (.ofExample engine.newExample) line := by
  have one : split (· == '|') line = [line] := split_of_forall_not fun c mem => by simpa using nobar c mem
  unfold build
  rw [one]
  exact bind_pure _

/-- A space at the end of the head does not count. -/
lemma addHead_append_space (engine : Engine) (b : Builder) (head : List Char) :
    addHead engine b (head ++ [' ']) = addHead engine b head := by
  unfold addHead
  rw [trim_append_blank (by decide)]

/-- A space at the end of a line does not count. -/
lemma build_append_space (engine : Engine) (line : List Char) : build engine (line ++ [' ']) = build engine line := by
  obtain ⟨pieces, last, before, after⟩ :=
    split_append_of_forall_not (p := (· == '|')) (t := [' ']) line (by simp)
  unfold build
  rw [before, after]
  -- the space goes to the last piece, which is the head when there is no bar
  cases pieces with
  | nil =>
    simp only [List.nil_append, List.headD_cons, List.tail_cons]
    rw [addHead_append_space]
  | cons head pieces =>
    simp only [List.cons_append, List.headD_cons, List.tail_cons]
    refine congrArg _ (funext fun b => ?_)
    rw [addSegments_append, addSegments_append]
    refine congrArg _ (funext fun b => ?_)
    rw [addSegments_singleton, addSegments_singleton, addSegment_append_space]

/-- A bar ends what was before it; the segment after it goes on from there. -/
lemma build_append_bar (line : List Char) (nobar : ∀ c ∈ segment, c ≠ '|') :
    build engine (line ++ '|' :: segment) = build engine line >>= (addSegment engine · segment) := by
  obtain ⟨head, pieces, before⟩ := exists_split_eq_cons (· == '|') line
  have one : split (· == '|') segment = [segment] := split_of_forall_not fun c mem => by simpa using nobar c mem
  unfold build
  rw [split_append_cons (by decide), before, one]
  simp only [List.cons_append, List.headD_cons, List.tail_cons]
  rw [bind_assoc]
  refine congrArg _ (funext fun b => ?_)
  rw [addSegments_append]
  exact congrArg _ (funext fun b => addSegments_singleton engine b segment)

/-- Each segment is closed, so no namespace is open behind them. -/
lemma current_of_addSegments {segments : List (List Char)} (closed : b.current = none)
    (ok : addSegments engine b segments = .ok b') : b'.current = none := by
  induction segments generalizing b with
  | nil =>
    cases ok
    exact closed
  | cons segment segments ih =>
    obtain ⟨next, first, rest⟩ := Except.bind_eq_ok.1 ok
    rw [addSegment_eq_map] at first
    obtain ⟨opened, -, rfl⟩ := Except.map_eq_ok.1 first
    exact ih (Builder.current_closeNamespace opened) rest

/-- After a whole line no namespace is open. -/
lemma current_of_build (ok : build engine line = .ok b) : b.current = none := by
  obtain ⟨head, first, rest⟩ := Except.bind_eq_ok.1 ok
  refine current_of_addSegments ?_ rest
  unfold addHead at first
  split at first
  · cases first
    rfl
  · obtain ⟨label, -, rfl⟩ := Except.map_eq_ok.1 first
    rfl

end Line

end FeatureLines
