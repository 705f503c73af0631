import Mathlib.Data.List.DropRight
import Mathlib.Data.List.Induction
import Mathlib.Data.List.ModifyLast
import FeatureLines.Proofs.Line

/-!
# Segments of a building

A builder takes operations in any order. What they build can be read off the operations themselves: each opening begins a
segment, which goes up to the next opening or closing, and a segment with features is a namespace (`Builder.segments`). The
namespace that is open in the middle of the operations is that of the last opening, unless a closing came behind it
(`Builder.opened`). One operation keeps all namespaces that are closed (`Builder.closed_prefix_step`), and so does a run.

A builder may as well have all its namespaces in one list, with a flag for whether the last one is open (`Builder.Flagged`).
Such a builder goes through the same operation by operation (`Builder.flagged_step`), and those that come from a builder are
the ones with a last namespace while the flag is set (`Builder.Flagged.exists_flagged`).

Main statement: `Builder.run_realises`.
-/

namespace FeatureLines

open Number

namespace Builder

/-- What can be asked of a builder before it is finished. -/
inductive Operation where
  | setLabel (label : ParsedLabel)
  | openNamespace (index : Char) (hash : UInt64)
  | preallocate (additional : Nat)
  | addFeature (hash : UInt64) (weight : Single)
  | closeNamespace
deriving DecidableEq

namespace Operation

def label? : Operation → Option ParsedLabel
  | setLabel label => some label
  | _ => none

def feature? : Operation → Option HashedFeature
  | addFeature hash weight => some ⟨hash, weight⟩
  | _ => none

/-- A segment ends here. -/
def isBoundary : Operation → Bool
  | openNamespace .. => true
  | closeNamespace => true
  | _ => false

end Operation

/-- The builder after an operation, with the count that a closing returns. -/
def step (b : Builder) : Operation → Builder × Option Nat
  | .setLabel label => (b.setLabel label, none)
  | .openNamespace index hash => (b.openNamespace index hash, none)
  | .preallocate additional => (b.preallocate additional, none)
  | .addFeature hash weight => (b.addFeature hash weight, none)
  | .closeNamespace => (b.closeNamespace.1, some b.closeNamespace.2)

def run (b : Builder) (operations : List Operation) : Builder := operations.foldl (fun b operation => (b.step operation).1) b

/-- A builder with one list for all its namespaces, the last of which may be open. -/
structure Flagged where
  label : Option ParsedLabel
  namespaces : List HashedNamespace
  isOpen : Bool
  leased : Bool

namespace Flagged

def ofExample (e : Example) : Flagged := ⟨e.label, e.namespaces, false, e.leased⟩

/-- Closes the last namespace, if it is open, and removes it if it has no features. -/
def closeNamespace (f : Flagged) : Flagged × Nat :=
  if f.isOpen then
    let count := (f.namespaces.getLast?.map (·.features.length)).getD 0
    ({ f with isOpen := false, namespaces := if count = 0 then f.namespaces.dropLast else f.namespaces }, count)
  else (f, 0)

def openNamespace (f : Flagged) (index : Char) (hash : UInt64) : Flagged :=
  let f := if f.isOpen then f.closeNamespace.1 else f
  { f with namespaces := f.namespaces ++ [⟨index, hash, []⟩], isOpen := true }

/-- Adds a feature to the last namespace, if it is open. -/
def addFeature (f : Flagged) (hash : UInt64) (weight : Single) : Flagged :=
  if f.isOpen then
    { f with namespaces := f.namespaces.modifyLast fun n => { n with features := n.features ++ [⟨hash, weight⟩] } }
  else f

def step (f : Flagged) : Operation → Flagged × Option Nat
  | .setLabel label => ({ f with label := some label }, none)
  | .openNamespace index hash => (f.openNamespace index hash, none)
  | .preallocate _ => (f, none)
  | .addFeature hash weight => (f.addFeature hash weight, none)
  | .closeNamespace => (f.closeNamespace.1, some f.closeNamespace.2)

def run (f : Flagged) (operations : List Operation) : Flagged := operations.foldl (fun f operation => (f.step operation).1) f

def finish (f : Flagged) : Example :=
  let f := f.closeNamespace.1
  ⟨f.label, f.namespaces, f.leased⟩

/-- While the flag is set, there is a namespace that can be open. -/
def Valid (f : Flagged) : Prop := f.isOpen = true → f.namespaces ≠ []

end Flagged

/-- The builder with its closed namespaces and the open one in one list. -/
def flagged (b : Builder) : Flagged := ⟨b.label, b.closed ++ b.current.toList, b.current.isSome, b.leased⟩

/-- The features that are added before the next boundary. -/
def added (operations : List Operation) : List HashedFeature :=
  (operations.takeWhile (!·.isBoundary)).filterMap Operation.feature?

/-- A namespace with features is kept. -/
def keep (n : HashedNamespace) : List HashedNamespace := if n.features.isEmpty then [] else [n]

/-- The namespaces of the segments. -/
def segments : List Operation → List HashedNamespace
  | [] => []
  | .openNamespace index hash :: rest => keep ⟨index, hash, added rest⟩ ++ segments rest
  | _ :: rest => segments rest

/-- The namespace that is open behind operations, with the features that it has by then. -/
def opened (operations : List Operation) : Option HashedNamespace :=
  match operations.reverse.find? Operation.isBoundary with
  | some (.openNamespace index hash) =>
    some ⟨index, hash, (operations.rtakeWhile (!·.isBoundary)).filterMap Operation.feature?⟩
  | _ => none

/-! ## What a builder is finished to -/

/-- The open namespace joins the closed ones, unless it has no features. -/
lemma closed_closeNamespace (b : Builder) : b.closeNamespace.1.closed = b.closed ++ (b.current.map keep).getD [] := by
  unfold closeNamespace keep
  cases b.current with
  | none => exact (List.append_nil _).symm
  | some n =>
    simp only [Option.map_some, Option.getD_some]
    split
    · exact (List.append_nil _).symm
    · rfl

/-- Closing a namespace concerns neither the label nor the lease. -/
lemma frame_closeNamespace (b : Builder) : b.closeNamespace.1.label = b.label ∧ b.closeNamespace.1.leased = b.leased := by
  unfold closeNamespace
  split <;> exact ⟨rfl, rfl⟩

/-- What a builder still adds to the example: the open namespace with its coming features, and the segments to come. -/
lemma closed_finish_run (b : Builder) (operations : List Operation) :
    (b.run operations).finish.namespaces =
      b.closed ++ (b.current.map fun n => keep { n with features := n.features ++ added operations }).getD [] ++
        segments operations := by
  induction operations generalizing b with
  | nil =>
    have none : added [] = [] := rfl
    simp [run, finish, closed_closeNamespace, segments, none]
  | cons operation rest ih =>
    refine (ih (b.step operation).1).trans ?_
    cases operation with
    | setLabel label => rfl
    | preallocate additional => rfl
    | addFeature hash weight =>
      have more : added (.addFeature hash weight :: rest) = ⟨hash, weight⟩ :: added rest := rfl
      cases current : b.current <;> simp [step, addFeature, segments, current, more]
    | openNamespace index hash =>
      have none : added (.openNamespace index hash :: rest) = [] := rfl
      simp [step, openNamespace, closed_closeNamespace, segments, none]
    | closeNamespace =>
      have none : added (.closeNamespace :: rest) = [] := rfl
      simp [step, closed_closeNamespace, segments, none]

lemma run_append (b : Builder) (before after : List Operation) : b.run (before ++ after) = (b.run before).run after :=
  List.foldl_append

/-- The last label counts. -/
lemma label_finish_run (b : Builder) (operations : List Operation) :
    (b.run operations).finish.label = (operations.filterMap Operation.label?).getLast?.or b.label := by
  induction operations generalizing b with
  | nil => exact b.frame_closeNamespace.1
  | cons operation rest ih =>
    refine (ih (b.step operation).1).trans ?_
    cases operation with
    | setLabel label =>
      have found : (Operation.setLabel label :: rest).filterMap Operation.label? = label :: rest.filterMap Operation.label? :=
        rfl
      rw [found, List.getLast?_cons]
      cases (rest.filterMap Operation.label?).getLast? <;> rfl
    | preallocate additional => rfl
    | addFeature hash weight => rfl
    | openNamespace index hash => exact congrArg _ b.frame_closeNamespace.1
    | closeNamespace => exact congrArg _ b.frame_closeNamespace.1

/-- No operation changes whether the example counts as leased. -/
lemma leased_run (b : Builder) (operations : List Operation) : (b.run operations).leased = b.leased := by
  induction operations generalizing b with
  | nil => rfl
  | cons operation rest ih =>
    refine (ih (b.step operation).1).trans ?_
    cases operation with
    | setLabel label => rfl
    | preallocate additional => rfl
    | addFeature hash weight => rfl
    | openNamespace index hash => exact b.frame_closeNamespace.2
    | closeNamespace => exact b.frame_closeNamespace.2

/-- The finished example is leased as the builder was. -/
lemma leased_finish_run (b : Builder) (operations : List Operation) : (b.run operations).finish.leased = b.leased :=
  (frame_closeNamespace _).2.trans (b.leased_run operations)

/-! ## What a builder is in the middle of -/

/-- An operation that is no boundary leaves the namespace open, and one that adds a feature adds it there. -/
lemma opened_concat_of_not_boundary {operation : Operation} (inside : operation.isBoundary = false)
    (operations : List Operation) :
    opened (operations ++ [operation]) =
      (opened operations).map fun n => { n with features := n.features ++ operation.feature?.toList } := by
  have features : ((operations ++ [operation]).rtakeWhile (!·.isBoundary)).filterMap Operation.feature? =
      (operations.rtakeWhile (!·.isBoundary)).filterMap Operation.feature? ++ operation.feature?.toList := by
    rw [List.rtakeWhile_concat_pos _ _ _ (by simp [inside]), List.filterMap_append]
    cases feature : operation.feature? <;> simp [feature]
  unfold opened
  rw [List.reverse_concat, List.find?_cons_of_neg (by simp [inside]), features]
  split <;> rfl

/-- The open namespace is that of the operations. -/
lemma current_run {b : Builder} (closed : b.current = none) (operations : List Operation) :
    (b.run operations).current = opened operations := by
  induction operations using List.reverseRecOn with
  | nil => exact closed
  | append_singleton operations operation ih =>
    have last : (b.run (operations ++ [operation])).current = ((b.run operations).step operation).1.current := by
      rw [run_append]
      rfl
    cases operation with
    | setLabel label =>
      rw [last, opened_concat_of_not_boundary rfl, ← ih]
      cases current : (b.run operations).current <;> simp [step, setLabel, current, Operation.feature?]
    | preallocate additional =>
      rw [last, opened_concat_of_not_boundary rfl, ← ih]
      cases current : (b.run operations).current <;> simp [step, preallocate, current, Operation.feature?]
    | addFeature hash weight =>
      rw [last, opened_concat_of_not_boundary rfl, ← ih]
      rfl
    | openNamespace index hash =>
      rw [last, opened, List.reverse_concat, List.find?_cons_of_pos rfl, List.rtakeWhile_concat_neg _ _ _ Bool.false_ne_true]
      rfl
    | closeNamespace =>
      rw [last, opened, List.reverse_concat, List.find?_cons_of_pos rfl]
      exact current_closeNamespace _

/-- A namespace that is closed stays, and stays where it is. -/
lemma closed_prefix_step (b : Builder) (operation : Operation) : b.closed <+: (b.step operation).1.closed := by
  have closing : b.closed <+: b.closeNamespace.1.closed := ⟨_, b.closed_closeNamespace.symm⟩
  cases operation with
  | setLabel label => exact List.prefix_rfl
  | preallocate additional => exact List.prefix_rfl
  | addFeature hash weight => exact List.prefix_rfl
  | openNamespace index hash => exact closing
  | closeNamespace => exact closing

/-- A namespace that is closed stays as it is. -/
lemma closed_prefix_run (b : Builder) (operations : List Operation) : b.closed <+: (b.run operations).closed := by
  induction operations generalizing b with
  | nil => exact List.prefix_rfl
  | cons operation rest ih => exact (b.closed_prefix_step operation).trans (ih _)

/-- Closing gives the number of features of the open namespace, and zero if none is open. -/
lemma count_closeNamespace (b : Builder) : b.closeNamespace.2 = (b.current.map (·.features.length)).getD 0 := by
  unfold closeNamespace
  cases b.current <;> rfl

/-! ## One list of namespaces -/

/-- Both forms of a builder start alike. -/
lemma flagged_ofExample (e : Example) : (ofExample e).flagged = .ofExample e := by
  unfold flagged ofExample Flagged.ofExample
  rw [Option.toList_none, List.append_nil]
  rfl

/-- Closing does the same in both forms and gives the same count. -/
lemma flagged_closeNamespace (b : Builder) :
    b.flagged.closeNamespace = (b.closeNamespace.1.flagged, b.closeNamespace.2) := by
  obtain ⟨label, closed, current, leased⟩ := b
  cases current with
  | none => rfl
  | some n =>
    obtain ⟨index, hash, features⟩ := n
    cases features <;> simp [flagged, Flagged.closeNamespace, closeNamespace]

/-- Whether or not its namespaces are in one list, a builder does the same in an operation and returns the same count. -/
theorem flagged_step (b : Builder) (operation : Operation) :
    b.flagged.step operation = ((b.step operation).1.flagged, (b.step operation).2) := by
  cases operation with
  | setLabel label => rfl
  | preallocate additional => rfl
  | closeNamespace =>
    have closing := b.flagged_closeNamespace
    simp only [Flagged.step, step, closing]
  | openNamespace index hash =>
    have closing : b.flagged.closeNamespace.1 = b.closeNamespace.1.flagged := congrArg Prod.fst b.flagged_closeNamespace
    -- a builder that is not open is not changed by closing, so it does not matter whether it is asked first
    have same : (if b.flagged.isOpen then b.flagged.closeNamespace.1 else b.flagged) = b.closeNamespace.1.flagged := by
      rw [← closing, Flagged.closeNamespace]
      split <;> rfl
    simp only [Flagged.step, Flagged.openNamespace, step, same]
    simp [flagged, openNamespace]
  | addFeature hash weight =>
    simp only [Flagged.step, step]
    cases current : b.current <;> simp [flagged, Flagged.addFeature, addFeature, current, List.modifyLast_concat]

/-- Whole runs do the same in both forms. -/
lemma flagged_run (b : Builder) (operations : List Operation) : b.flagged.run operations = (b.run operations).flagged := by
  induction operations generalizing b with
  | nil => rfl
  | cons operation rest ih =>
    refine Eq.trans ?_ (ih (b.step operation).1)
    exact congrArg (Flagged.run · rest) (congrArg Prod.fst (b.flagged_step operation))

/-- Both forms finish to the same example. -/
lemma flagged_finish (b : Builder) : b.flagged.finish = b.finish := by
  have closing : b.flagged.closeNamespace.1 = b.closeNamespace.1.flagged := congrArg Prod.fst b.flagged_closeNamespace
  unfold Flagged.finish finish
  simp only [closing]
  simp [flagged]

/-- The flag of a builder is set only while there is a namespace to which it can refer. -/
lemma flagged_valid (b : Builder) : b.flagged.Valid := by
  intro isOpen
  obtain ⟨n, current⟩ := Option.isSome_iff_exists.1 isOpen
  simp [flagged, current]

/-- A builder with a flag comes from one without, if there is a namespace that can be open while the flag is set. -/
theorem Flagged.exists_flagged {f : Flagged} (valid : f.Valid) : ∃ b : Builder, b.flagged = f := by
  obtain ⟨label, namespaces, isOpen, leased⟩ := f
  cases isOpen with
  | false => exact ⟨⟨label, namespaces, none, leased⟩, by rw [flagged, Option.toList_none, List.append_nil]; rfl⟩
  | true =>
    have split := List.dropLast_append_getLast (valid rfl)
    exact ⟨⟨label, namespaces.dropLast, some (namespaces.getLast (valid rfl)), leased⟩, by
      rw [flagged, Option.toList_some, split]; rfl⟩

/-- An operation leaves a namespace that can be open while the flag is set. -/
lemma Flagged.Valid.step {f : Flagged} (valid : f.Valid) (operation : Operation) : (f.step operation).1.Valid := by
  obtain ⟨b, rfl⟩ := exists_flagged valid
  rw [flagged_step]
  exact flagged_valid _

/-- In no run does the flag come to refer to a namespace that is not there. -/
lemma Flagged.Valid.run {f : Flagged} (valid : f.Valid) (operations : List Operation) : (f.run operations).Valid := by
  obtain ⟨b, rfl⟩ := exists_flagged valid
  rw [flagged_run]
  exact flagged_valid _

/-- Operations on a new builder do what their segments say. -/
structure Realises (start : Builder) (operations : List Operation) : Prop where
  /-- The last label is set, and the namespaces are those of the segments with features. -/
  finish : (start.run operations).finish =
    ⟨(operations.filterMap Operation.label?).getLast?, segments operations, start.leased⟩
  /-- A closing counts the features of the open namespace, and zero where none is open. -/
  count : ∀ before after, operations = before ++ .closeNamespace :: after →
    ((start.run before).step .closeNamespace).2 = some (((opened before).map (·.features.length)).getD 0)
  /-- A feature that is added while no namespace is open is dropped. -/
  drop : ∀ before hash weight after, operations = before ++ .addFeature hash weight :: after → opened before = none →
    start.run operations = start.run (before ++ after)
  preallocate : ∀ before additional after, operations = before ++ .preallocate additional :: after →
    start.run operations = start.run (before ++ after)
  /-- A namespace that is closed is never changed or removed. -/
  closed : ∀ before after, operations = before ++ after →
    (start.run before).closed <+: (start.run operations).closed ∧
      (start.run before).closed <+: (start.run operations).finish.namespaces
  /-- With its namespaces in one list, a new builder has none, and its flag is not set. -/
  flaggedStart : start.flagged = .ofExample (.empty start.leased)
  /-- Then the open namespace is the last one, and the flag is set while there is one. -/
  flagged : ∀ before after, operations = before ++ after → start.flagged.run before =
    ⟨(start.run before).label, (start.run before).closed ++ (opened before).toList, (opened before).isSome, start.leased⟩
  /-- The counts are the same. -/
  flaggedCount : ∀ before operation after, operations = before ++ operation :: after →
    ((start.flagged.run before).step operation).2 = ((start.run before).step operation).2
  flaggedFinish : (start.flagged.run operations).finish = (start.run operations).finish

/-- On a builder of an empty example every sequence of operations does what its segments say. -/
theorem run_realises (leased : Bool) (operations : List Operation) :
    Realises (ofExample (.empty leased)) operations where
  finish := by
    have label := label_finish_run (ofExample (.empty leased)) operations
    have namespaces := closed_finish_run (ofExample (.empty leased)) operations
    have lease := leased_finish_run (ofExample (.empty leased)) operations
    rw [ofExample, Example.empty, Option.or_none] at label
    exact congr (congr (congrArg Example.mk label) namespaces) lease
  count before after _ := by
    rw [← current_run (b := ofExample (.empty leased)) rfl before]
    exact congrArg some (count_closeNamespace _)
  drop := by
    rintro before hash weight after rfl none
    have closed := current_run (b := ofExample (.empty leased)) rfl before
    rw [none] at closed
    rw [run_append, run_append]
    refine congrArg (run · after) ?_
    change addFeature (run _ before) hash weight = run _ before
    rw [addFeature, closed, Option.map_none, ← closed]
  preallocate := by
    rintro before additional after rfl
    rw [run_append, run_append]
    rfl
  closed := by
    rintro before after rfl
    have kept := closed_prefix_run ((ofExample (.empty leased)).run before) after
    rw [run_append]
    exact ⟨kept, kept.trans ⟨_, (closed_closeNamespace _).symm⟩⟩
  flaggedStart := flagged_ofExample _
  flagged before _ _ := by
    have lease := leased_run (ofExample (.empty leased)) before
    rw [flagged_run, ← current_run (b := ofExample (.empty leased)) rfl before, ← lease]
    rfl
  flaggedCount before operation _ _ := by rw [flagged_run, flagged_step]
  flaggedFinish := by rw [flagged_run, flagged_finish]

end Builder

end FeatureLines
