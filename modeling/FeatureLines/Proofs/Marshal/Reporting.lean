import FeatureLines.Proofs.Marshal.BuiltIn
import FeatureLines.Proofs.Marshal.Happenings

/-!
# What marshallers report

A built-in or an enumerizing marshaller reports nothing but a value of another type than the one it is bound to
(`Writing.OnlyMisbound`). So no event of its writing says that the two forms of an example disagree: this is said by the
comparison of the two forms alone.
-/

namespace FeatureLines

namespace Writing

/-- Whatever the answers to earlier operations are, nothing is reported but values of another type. -/
def OnlyMisbound : Writing → Prop
  | done => True
  | indicator _ next => next.OnlyMisbound
  | weighted _ _ next => next.OnlyMisbound
  | dense _ _ next => next.OnlyMisbound
  | preallocate _ next => next.OnlyMisbound
  | render _ next => ∀ text, (next text).OnlyMisbound
  | remember _ _ _ next => ∀ text, (next text).OnlyMisbound
  | look next => ∀ view, (next view).OnlyMisbound
  | report event next => (∃ path expected, event = .misbound path expected) ∧ next.OnlyMisbound

/-- One writing after another reports nothing else if neither does. -/
lemma OnlyMisbound.followedBy {w after : Writing} (first : w.OnlyMisbound) (second : after.OnlyMisbound) :
    (w.followedBy after).OnlyMisbound := by
  induction w with
  | done => exact second
  | indicator name next ih => exact ih first
  | weighted name weight next ih => exact ih first
  | dense anchor weights next ih => exact ih first
  | preallocate additional next ih => exact ih first
  | render rendering next ih => exact fun text => ih text (first text)
  | remember kept site rendering next ih => exact fun text => ih text (first text)
  | look next ih => exact fun view => ih view (first view)
  | report event next ih => exact ⟨first.1, ih first.2⟩

/-- A writing for each of some items reports nothing else if none for an item does. -/
lemma onlyMisbound_forEach {α : Type} {write : α → Writing} {items : List α}
    (each : ∀ item ∈ items, (write item).OnlyMisbound) : (forEach write items).OnlyMisbound :=
  forEach_induction trivial OnlyMisbound.followedBy each

end Writing

namespace Handle

open Writing

variable {feature : Feature} {space : Namespace} {cell : Cell}

/-- A handle reports that it is bound to another type, or what its marshaller reports. -/
lemma onlyMisbound_write {h : Handle} (marshal : (h.marshal space feature cell).OnlyMisbound) :
    (h.write space feature cell).OnlyMisbound := by
  unfold write
  split
  · exact marshal
  · split
    · exact marshal
    · exact ⟨⟨_, _, rfl⟩, trivial⟩

/-- The marshaller for numbers reports nothing at all. -/
lemma onlyMisbound_numeric : (writeNumeric feature cell).OnlyMisbound := by
  unfold writeNumeric
  split
  · split <;> trivial
  · trivial

/-- The marshaller for variants reports nothing at all. -/
lemma onlyMisbound_variant : (writeVariant feature cell).OnlyMisbound := by
  unfold writeVariant
  split
  · split <;> trivial
  · trivial

/-- The marshaller for dense vectors reports nothing at all. -/
lemma onlyMisbound_dense : (writeDense feature cell).OnlyMisbound := by
  unfold writeDense
  split <;> trivial

/-- The marshaller for dictionaries reports nothing, whatever the texts of the keys are. -/
lemma onlyMisbound_dictionary : (writeDictionary cell).OnlyMisbound := by
  unfold writeDictionary
  split
  · exact onlyMisbound_forEach fun entry _ key => trivial
  · trivial

/-- The marshaller for bags reports nothing, whatever the texts of the items are. -/
lemma onlyMisbound_bag : (writeBag cell).OnlyMisbound := by
  unfold writeBag
  split
  · refine onlyMisbound_forEach fun item _ text => ?_
    beta_reduce
    split <;> trivial
  · trivial

/-- The marshaller for displayed values reports nothing, whichever text is kept. -/
lemma onlyMisbound_display : (writeDisplay feature cell).OnlyMisbound := by
  unfold writeDisplay
  split
  · exact fun text => onlyMisbound_forEach fun token _ => trivial
  · trivial

/-- A built-in marshaller reports values of another type only. -/
theorem onlyMisbound_builtIn {type : ValueType} {h : Handle} (found : builtIn? type = some h) :
    (h.write space feature cell).OnlyMisbound := by
  refine onlyMisbound_write ?_
  unfold builtIn? at found
  simp only at found
  split at found
  · cases found; exact onlyMisbound_numeric
  · cases found; exact onlyMisbound_variant
  · cases found; exact onlyMisbound_dense
  · cases found; exact onlyMisbound_dictionary
  · cases found; exact onlyMisbound_bag
  · cases found; exact onlyMisbound_display
  · cases found
  · cases found

/-- An enumerizing marshaller reports nothing but values of another type. -/
theorem onlyMisbound_enumerizing {type : ValueType} {h : Handle} (found : enumerizing? type = some h) :
    (h.write space feature cell).OnlyMisbound := by
  refine onlyMisbound_write ?_
  unfold enumerizing? at found
  split at found
  · cases found
    exact fun text => trivial
  · cases found

end Handle

/-! ## Happenings -/

/-- What happens is no disagreement of two forms. -/
def Happening.Undisputed : Happening → Prop
  | event e => ∀ differences, e ≠ .disagreement differences
  | weight _ _ => True

/-- No disagreement is recorded of what is none. -/
lemma Happening.Undisputed.events {h : Happening} (undisputed : h.Undisputed) (warnings : Bool) (differences : Nat) :
    .disagreement differences ∉ h.events warnings := by
  cases h with
  | event e =>
    intro mem
    exact undisputed differences (List.mem_singleton.1 mem).symm
  | weight name w =>
    simp only [Happening.events]
    split
    · simp
    · exact List.not_mem_nil

namespace Context

/-- A weight says nothing about the two forms. -/
lemma undisputed_weighing (c : Context) (name : String) (weights : List Number.Double) :
    ∀ h ∈ c.weighing name weights, h.Undisputed := by
  unfold weighing
  split
  · exact fun _ mem => nomatch mem
  · rintro _ mem
    obtain ⟨weight, -, rfl⟩ := List.mem_map.1 mem
    trivial

/-- A text that is made says nothing about the two forms either. -/
lemma undisputed_making (rendering : Rendering) : ∀ h ∈ making rendering, h.Undisputed := by
  unfold making
  split
  · rintro _ mem
    rw [List.mem_singleton.1 mem]
    exact fun _ => Event.noConfusion
  · exact fun _ mem => nomatch mem

/-- Nothing that happens in such a writing is a disagreement. -/
theorem undisputed_happenings {w : Writing} (only : w.OnlyMisbound) (c : Context) : ∀ h ∈ c.happenings w, h.Undisputed := by
  induction w generalizing c with
  | done => exact fun _ mem => nomatch mem
  | indicator name next ih => exact ih only _
  | weighted name weight next ih =>
    exact List.forall_mem_append.2 ⟨c.undisputed_weighing _ _, ih only _⟩
  | dense anchor weights next ih => exact List.forall_mem_append.2 ⟨c.undisputed_weighing _ _, ih only _⟩
  | preallocate additional next ih => exact ih only _
  | render rendering next ih => exact List.forall_mem_append.2 ⟨undisputed_making _, ih _ (only _) _⟩
  | remember feature site rendering next ih =>
    refine List.forall_mem_append.2 ⟨?_, ih _ (only _) _⟩
    split
    · exact fun _ mem => nomatch mem
    · exact undisputed_making _
  | look next ih => exact ih _ (only _) c
  | report event next ih =>
    obtain ⟨⟨path, expected, rfl⟩, rest⟩ := only
    exact List.forall_mem_cons.2 ⟨fun _ => Event.noConfusion, ih rest _⟩

end Context

end FeatureLines
