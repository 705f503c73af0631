import FeatureLines.Proofs.Line

/-!
# Well-formed examples

A well-formed example has no namespace without features and no feature whose weight is zero or no number, and the index of
each namespace is the first character of the name that was hashed for it. A builder that is opened at such names and given
such weights makes well-formed examples (`Builder.WellFormed`), and reading a line does both (`Line.read_wellFormed`).
-/

namespace FeatureLines

open Number Text

/-- A weight that counts: it is neither of the zeros, and it is a number. -/
def Number.Binary.Counts {f : Format} (weight : Binary f) : Prop := weight.isZero = false ∧ weight.isNan = false

/-- The index and the hash of a namespace are those of one of some names. -/
def HashedNamespace.Named (engine : Engine) (names : String → Prop) (n : HashedNamespace) : Prop :=
  ∃ name, names name ∧ n.index = name.toList.headD ' ' ∧ n.hash = engine.hashSpace name

structure HashedNamespace.WellFormed (engine : Engine) (names : String → Prop) (n : HashedNamespace) : Prop where
  named : n.Named engine names
  nonempty : n.features ≠ []
  weights : ∀ f ∈ n.features, f.weight.Counts

def Example.WellFormed (engine : Engine) (names : String → Prop) (e : Example) : Prop :=
  ∀ n ∈ e.namespaces, n.WellFormed engine names

/-- The open namespace may be without features yet. -/
structure Builder.WellFormed (engine : Engine) (names : String → Prop) (b : Builder) : Prop where
  closed : ∀ n ∈ b.closed, n.WellFormed engine names
  named : ∀ n, b.current = some n → n.Named engine names
  weights : ∀ n, b.current = some n → ∀ f ∈ n.features, f.weight.Counts

variable {engine : Engine} {names : String → Prop}

namespace Builder.WellFormed

variable {b : Builder}

/-- Nothing is built at the start. -/
lemma start (engine : Engine) (names : String → Prop) : (Builder.ofExample engine.newExample).WellFormed engine names :=
  ⟨fun _ mem => (nomatch mem), fun _ opened => (nomatch opened), fun _ opened => nomatch opened⟩

lemma setLabel (h : b.WellFormed engine names) (label : ParsedLabel) : (b.setLabel label).WellFormed engine names :=
  ⟨h.closed, h.named, h.weights⟩

/-- A namespace is kept when it has features. -/
lemma closeNamespace (h : b.WellFormed engine names) : b.closeNamespace.1.WellFormed engine names := by
  refine ⟨fun n mem => ?_, fun n opened => ?_, fun n opened => ?_⟩
  · unfold Builder.closeNamespace at mem
    split at mem
    · exact h.closed n mem
    · rename_i last current
      simp only at mem
      split at mem
      · exact h.closed n mem
      · rename_i filled
        rcases List.mem_append.1 mem with old | new
        · exact h.closed n old
        · rw [List.mem_singleton.1 new]
          exact ⟨h.named last current, fun none => filled (List.isEmpty_iff.2 none), h.weights last current⟩
  · rw [current_closeNamespace] at opened
    cases opened
  · rw [current_closeNamespace] at opened
    cases opened

/-- A namespace that is opened has its header from its name. -/
lemma openNamespace (h : b.WellFormed engine names) {name : String} (known : names name) :
    (b.openNamespace (name.toList.headD ' ') (engine.hashSpace name)).WellFormed engine names := by
  refine ⟨h.closeNamespace.closed, fun n opened => ?_, fun n opened => ?_⟩
  · cases opened
    exact ⟨name, known, rfl, rfl⟩
  · cases opened
    exact fun f mem => nomatch mem

/-- A feature goes into the open namespace if there is one, and its weight counts. -/
lemma addFeature (h : b.WellFormed engine names) (hash : UInt64) {weight : Single} (counts : weight.Counts) :
    (b.addFeature hash weight).WellFormed engine names := by
  refine ⟨h.closed, fun n opened => ?_, fun n opened => ?_⟩
  · obtain ⟨before, current, rfl⟩ := Option.map_eq_some_iff.1 opened
    exact h.named before current
  · obtain ⟨before, current, rfl⟩ := Option.map_eq_some_iff.1 opened
    intro f mem
    rcases List.mem_append.1 mem with old | new
    · exact h.weights before current f old
    · rw [List.mem_singleton.1 new]
      exact counts

/-- All namespaces are closed when an example is finished, so those without features are gone. -/
lemma finish (h : b.WellFormed engine names) : b.finish.WellFormed engine names := h.closeNamespace.closed

end Builder.WellFormed

/-! ## Lines that are read -/

namespace Line

variable {b b' : Builder}

/-- Words whose weight does not count are skipped. -/
lemma addWords_wellFormed (h : b.WellFormed engine names) {space : UInt64} {ws : List (List Char)}
    (ok : addWords engine space b ws = .ok b') : b'.WellFormed engine names := by
  induction ws generalizing b with
  | nil =>
    cases ok
    exact h
  | cons word ws ih =>
    obtain ⟨token, -, rest⟩ := Except.bind_eq_ok.1 ok
    split at rest
    · rename_i kept
      refine ih (h.addFeature _ ?_) rest
      simpa [Token.isKept, Binary.Counts] using kept
    · exact ih h rest

/-- A segment is a namespace of the name at its start. -/
lemma addSegment_wellFormed (h : b.WellFormed engine names) {segment : List Char}
    (known : names (String.ofList (nameOf segment))) (ok : addSegment engine b segment = .ok b') :
    b'.WellFormed engine names := by
  rw [addSegment_eq_map] at ok
  obtain ⟨opened, added, rfl⟩ := Except.map_eq_ok.1 ok
  have begun := h.openNamespace known
  rw [String.toList_ofList] at begun
  exact (addWords_wellFormed begun added).closeNamespace

/-- Segments of known names are read to well-formed namespaces. -/
lemma addSegments_wellFormed (h : b.WellFormed engine names) {segments : List (List Char)}
    (known : ∀ segment ∈ segments, names (String.ofList (nameOf segment)))
    (ok : addSegments engine b segments = .ok b') : b'.WellFormed engine names := by
  induction segments generalizing b with
  | nil =>
    cases ok
    exact h
  | cons segment segments ih =>
    obtain ⟨first, others⟩ := List.forall_mem_cons.1 known
    obtain ⟨next, added, rest⟩ := Except.bind_eq_ok.1 ok
    exact ih (addSegment_wellFormed h first added) others rest

/-- The names of the segments of a line. -/
def spaceNames (line : List Char) : List String := (split (· == '|') line).tail.map fun segment => String.ofList (nameOf segment)

/-- Whatever line is read, the example is well formed. -/
theorem read_wellFormed {line : List Char} {e : Example} (ok : read engine line = .ok e) :
    e.WellFormed engine (· ∈ spaceNames line) := by
  obtain ⟨head, first, ok⟩ := Except.bind_eq_ok.1 ok
  obtain ⟨built, rest, done⟩ := Except.bind_eq_ok.1 ok
  cases done
  have labelled : head.WellFormed engine (· ∈ spaceNames line) := by
    have start := Builder.WellFormed.start engine (· ∈ spaceNames line)
    unfold addHead at first
    split at first
    · cases first
      exact start
    · obtain ⟨label, -, rfl⟩ := Except.map_eq_ok.1 first
      exact start.setLabel label
  exact (addSegments_wellFormed labelled (fun segment mem => List.mem_map_of_mem mem) rest).finish

end Line

end FeatureLines
