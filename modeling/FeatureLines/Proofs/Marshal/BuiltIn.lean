import Mathlib.Data.List.Basic
import FeatureLines.Marshal.Registry
import FeatureLines.Text.Escape

/-!
# What the built-in marshallers write

The writings of the built-in and the enumerizing marshallers are ordinary (`Writing.Ordinary`): whatever the answers to
earlier operations are, they never look at the context, they keep texts for their own feature only, and if the feature has
a name, the names that they write can stand in a text line. All that is shown of ordinary writings holds of every feature
that has no marshaller of the caller's.
-/

namespace FeatureLines

open Text

/-- A name that can stand before a weight. -/
def IsWeightName (name : String) : Prop := ∀ c ∈ name.toList, isBlank c = false ∧ c ≠ '|'

/-- A name that can stand alone. -/
structure IsTokenName (name : String) : Prop where
  ne_empty : name ≠ ""
  safe : ∀ c ∈ name.toList, needsEscape c = false

/-- A feature whose own name and whose variants' tokens are names. -/
structure Feature.IsNamed (feature : Feature) : Prop where
  name : IsTokenName feature.name
  tokens : ∀ token ∈ feature.variantTokens, IsTokenName token

/-! ## Names -/

/-- A character that needs no escape neither separates words nor opens a namespace. -/
lemma not_blank_of_not_needsEscape {c : Char} (safe : needsEscape c = false) : isBlank c = false ∧ c ≠ '|' := by
  simp only [needsEscape, Bool.or_eq_false_iff, beq_eq_false_iff_ne] at safe
  exact safe.1

/-- A name that can stand alone can stand before a weight. -/
lemma IsTokenName.isWeightName {name : String} (named : IsTokenName name) : IsWeightName name := by
  intro c mem
  exact not_blank_of_not_needsEscape (named.safe c mem)

/-- Any escaped text can stand before a weight, the empty one too. -/
lemma isWeightName_escape (s : String) : IsWeightName (escape s) := by
  intro c mem
  exact not_blank_of_not_needsEscape (not_needsEscape_of_mem_escape mem)

/-- An escaped text can stand alone unless it is empty. -/
lemma isTokenName_escape {s : String} (ne : s ≠ "") : IsTokenName (escape s) where
  ne_empty empty := ne (by simpa [escape] using empty)
  safe _ := not_needsEscape_of_mem_escape

/-- A name with an escaped text after it is a name. -/
lemma IsTokenName.append_escape {name : String} (named : IsTokenName name) (s : String) :
    IsTokenName (name ++ escape s) where
  ne_empty empty := named.ne_empty (String.append_eq_empty_iff.1 empty).1
  safe c mem := by
    rw [String.toList_append] at mem
    rcases List.mem_append.1 mem with front | back
    · exact named.safe c front
    · exact not_needsEscape_of_mem_escape back

/-! ## Ordinary writings -/

namespace Writing

/-- A writing for a feature that does not look at the context and keeps texts for the feature only; the names are
legible if the feature has a name. -/
def Ordinary (feature : Feature) : Writing → Prop
  | done => True
  | indicator name next => (feature.IsNamed → IsTokenName name) ∧ next.Ordinary feature
  | weighted name _ next => (feature.IsNamed → IsWeightName name) ∧ next.Ordinary feature
  | dense _ _ next => next.Ordinary feature
  | preallocate _ next => next.Ordinary feature
  | render _ next => ∀ text, (next text).Ordinary feature
  | remember kept _ _ next => kept = feature ∧ ∀ text, (next text).Ordinary feature
  | look _ => False
  | report _ next => next.Ordinary feature

variable {feature : Feature}

/-- Ordinary writings stay ordinary one after the other. -/
lemma Ordinary.followedBy {w after : Writing} (first : w.Ordinary feature) (second : after.Ordinary feature) :
    (w.followedBy after).Ordinary feature := by
  induction w with
  | done => exact second
  | indicator name next ih => exact ⟨first.1, ih first.2⟩
  | weighted name weight next ih => exact ⟨first.1, ih first.2⟩
  | dense anchor weights next ih => exact ih first
  | preallocate additional next ih => exact ih first
  | render rendering next ih => exact fun text => ih text (first text)
  | remember kept site rendering next ih => exact ⟨first.1, fun text => ih text (first.2 text)⟩
  | look next => exact first.elim
  | report event next ih => exact ih first

/-- What holds of writing nothing, and of one writing after another, holds of a writing for each of some items. -/
lemma forEach_induction {P : Writing → Prop} (done : P .done)
    (followedBy : ∀ {w after : Writing}, P w → P after → P (w.followedBy after)) {α : Type} {write : α → Writing}
    {items : List α} (each : ∀ item ∈ items, P (write item)) : P (forEach write items) := by
  induction items with
  | nil => exact done
  | cons item items ih =>
    exact followedBy (each item List.mem_cons_self) (ih fun other mem => each other (List.mem_cons_of_mem _ mem))

/-- What is written for each item is ordinary if it is for every single one. -/
lemma ordinary_forEach {α : Type} {write : α → Writing} {items : List α}
    (each : ∀ item ∈ items, (write item).Ordinary feature) : (forEach write items).Ordinary feature :=
  forEach_induction trivial Ordinary.followedBy each

end Writing

namespace Handle

open Writing

variable {feature : Feature}

/-- A number is written under the name of the feature, or not at all. -/
lemma ordinary_numeric (feature : Feature) (cell : Cell) : (writeNumeric feature cell).Ordinary feature := by
  unfold writeNumeric
  split
  · split
    · exact ⟨fun named => named.name, trivial⟩
    · trivial
    · exact ⟨fun named => named.name.isWeightName, trivial⟩
  · trivial

/-- A variant is written as one of the prepared tokens. -/
lemma ordinary_variant (feature : Feature) (cell : Cell) : (writeVariant feature cell).Ordinary feature := by
  unfold writeVariant
  split
  · split
    · rename_i found
      exact ⟨fun named => named.tokens _ (List.mem_of_getElem? found), trivial⟩
    · trivial
  · trivial

/-- Elements of a vector have no names. -/
lemma ordinary_dense (feature : Feature) (cell : Cell) : (writeDense feature cell).Ordinary feature := by
  unfold writeDense
  split <;> trivial

/-- Keys are escaped, and a weight stands behind each. -/
lemma ordinary_dictionary (feature : Feature) (cell : Cell) : (writeDictionary cell).Ordinary feature := by
  unfold writeDictionary
  split
  · exact ordinary_forEach fun entry _ key => ⟨fun _ => isWeightName_escape key, trivial⟩
  · trivial

/-- Items are escaped, and those without a text are left out. -/
lemma ordinary_bag (feature : Feature) (cell : Cell) : (writeBag cell).Ordinary feature := by
  unfold writeBag
  split
  · refine ordinary_forEach fun item _ text => ?_
    beta_reduce
    split
    · trivial
    · rename_i nonempty
      exact ⟨fun _ => isTokenName_escape fun empty => nonempty (by rw [empty]; rfl), trivial⟩
  · trivial

/-- Every token of a text is a name, if the feature has one. -/
lemma isTokenName_of_mem_displayTokens (named : feature.IsNamed) {text token : String}
    (mem : token ∈ displayTokens feature text) : IsTokenName token := by
  unfold displayTokens at mem
  split at mem
  · obtain ⟨word, found, rfl⟩ := List.mem_map.1 mem
    exact isTokenName_escape (by simpa using ne_nil_of_mem_words found)
  · split at mem
    · cases mem
    · rename_i nonempty
      rw [List.mem_singleton.1 mem]
      exact isTokenName_escape (by simpa using nonempty)
  · rw [List.mem_singleton.1 mem]
    exact named.name.append_escape text

/-- A displayed value is written in tokens of its text, which is kept for the feature. -/
lemma ordinary_display (feature : Feature) (cell : Cell) : (writeDisplay feature cell).Ordinary feature := by
  unfold writeDisplay
  split
  · exact ⟨rfl, fun text => ordinary_forEach fun token mem =>
      ⟨fun named => isTokenName_of_mem_displayTokens named mem, trivial⟩⟩
  · trivial

/-- A value of another type is reported, which is ordinary. -/
lemma ordinary_write {h : Handle} {space : Namespace} {cell : Cell}
    (marshal : (h.marshal space feature cell).Ordinary feature) : (h.write space feature cell).Ordinary feature := by
  unfold write
  split
  · exact marshal
  · split
    · exact marshal
    · trivial

/-- What a built-in marshaller writes is ordinary. -/
theorem ordinary_builtIn {type : ValueType} {h : Handle} (found : builtIn? type = some h) (feature : Feature)
    (space : Namespace) (cell : Cell) : (h.write space feature cell).Ordinary feature := by
  refine ordinary_write ?_
  unfold builtIn? at found
  simp only at found
  split at found
  · cases found; exact ordinary_numeric feature cell
  · cases found; exact ordinary_variant feature cell
  · cases found; exact ordinary_dense feature cell
  · cases found; exact ordinary_dictionary feature cell
  · cases found; exact ordinary_bag feature cell
  · cases found; exact ordinary_display feature cell
  · cases found
  · cases found

/-- What an enumerizing marshaller writes is ordinary. -/
theorem ordinary_enumerizing {type : ValueType} {h : Handle} (found : enumerizing? type = some h) (feature : Feature)
    (space : Namespace) (cell : Cell) : (h.write space feature cell).Ordinary feature := by
  refine ordinary_write ?_
  unfold enumerizing? at found
  split at found
  · cases found
    exact ⟨rfl, fun text => ⟨fun named => named.name.append_escape text, trivial⟩⟩
  · cases found

end Handle

end FeatureLines
