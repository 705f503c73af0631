import FeatureLines.Proofs.Results

/-!
# The first fault

A computation in steps goes through the faults of its input in a fixed order and stops at the first. A fault is given by
what it reports: it is present where it reports something. `First faults failure` says that of some faults the first one
that is present reports a failure, and `Except.Reports` that a computation fails in this way and in no other. Steps one
after the other report the faults of the first step before those of the second (`Except.Reports.bind`), and computing on
every member of a list reports the faults of the members in order (`Except.Reports.mapM`).
-/

namespace FeatureLines

/-- Of some faults, the first one that is present reports a failure. -/
inductive First {ε : Type} : List (ε → Prop) → ε → Prop
  | here {fault : ε → Prop} {rest : List (ε → Prop)} {failure : ε} (present : fault failure) :
      First (fault :: rest) failure
  | later {fault : ε → Prop} {rest : List (ε → Prop)} {failure : ε} (absent : ∀ failure, ¬fault failure)
      (found : First rest failure) : First (fault :: rest) failure

namespace First

variable {ε : Type} {faults others : List (ε → Prop)} {fault : ε → Prop} {failure : ε}

lemma not_nil : ¬First [] failure := nofun

lemma cons_iff : First (fault :: faults) failure ↔ fault failure ∨ (∀ failure, ¬fault failure) ∧ First faults failure := by
  constructor
  · intro first
    cases first with
    | here present => exact .inl present
    | later absent found => exact .inr ⟨absent, found⟩
  · rintro (present | ⟨absent, found⟩)
    · exact .here present
    · exact .later absent found

lemma singleton_iff : First [fault] failure ↔ fault failure := by
  rw [cons_iff]
  exact or_iff_left fun ⟨_, found⟩ => not_nil found

/-- One of the faults is the first if and only if one is present. -/
theorem exists_iff : (∃ failure, First faults failure) ↔ ∃ fault ∈ faults, ∃ failure, fault failure := by
  induction faults with
  | nil => simp [not_nil]
  | cons fault faults ih =>
    rw [List.exists_mem_cons_iff, ← ih]
    constructor
    · rintro ⟨failure, first⟩
      rcases cons_iff.1 first with present | ⟨-, found⟩
      · exact .inl ⟨failure, present⟩
      · exact .inr ⟨failure, found⟩
    · rintro (⟨failure, present⟩ | ⟨failure, found⟩)
      · exact ⟨failure, .here present⟩
      · by_cases here : ∃ failure, fault failure
        · obtain ⟨failure, present⟩ := here
          exact ⟨failure, .here present⟩
        · exact ⟨failure, .later (not_exists.1 here) found⟩

/-- The first of more faults is one of the first ones, or none of those is present. -/
lemma append_iff :
    First (faults ++ others) failure ↔ First faults failure ∨ (∀ failure, ¬First faults failure) ∧ First others failure := by
  induction faults with
  | nil => simp [not_nil]
  | cons fault faults ih =>
    rw [List.cons_append, cons_iff, ih]
    have absent : (∀ failure, ¬First (fault :: faults) failure) ↔
        (∀ failure, ¬fault failure) ∧ ∀ failure, ¬First faults failure := by
      rw [← not_exists, exists_iff, ← not_exists, ← not_exists, exists_iff, List.exists_mem_cons_iff, not_or]
    rw [absent, cons_iff]
    tauto

/-- The first fault of some members is the first that is found in them. -/
lemma map_iff {α : Type} {fault : α → ε → Prop} {find? : α → Option ε}
    (found : ∀ a failure, find? a = some failure ↔ fault a failure) (l : List α) (failure : ε) :
    First (l.map fault) failure ↔ l.findSome? find? = some failure := by
  induction l with
  | nil => exact ⟨nofun, nofun⟩
  | cons a l ih =>
    rw [List.map_cons, cons_iff, List.findSome?_cons, ih, ← found]
    cases here : find? a with
    | none =>
      have absent : ∀ failure, ¬fault a failure := fun failure present => by
        rw [← found, here] at present
        cases present
      simp [absent]
    | some other =>
      have present : ¬∀ failure, ¬fault a failure := fun absent => absent other ((found a other).1 here)
      simp [present]

end First

end FeatureLines

/-! ## Computations that report the first fault -/

namespace Except

open FeatureLines

variable {ε α β : Type} {x : Except ε α} {faults others : List (ε → Prop)}

/-- A computation fails for the first of some faults that is present, and for nothing else. -/
def Reports (x : Except ε α) (faults : List (ε → Prop)) : Prop := ∀ failure, x = .error failure ↔ First faults failure

namespace Reports

lemma ok (a : α) : Reports (.ok a : Except ε α) [] := fun _ => ⟨nofun, nofun⟩

lemma congr (reports : x.Reports faults) (same : ∀ failure, First faults failure ↔ First others failure) :
    x.Reports others := fun failure => (reports failure).trans (same failure)

/-- Of two steps, the faults of the first one come first. -/
theorem bind {f : α → Except ε β} (first : x.Reports faults) (next : ∀ a, x = .ok a → (f a).Reports others) :
    (x >>= f).Reports (faults ++ others) := fun failure => by
  rw [First.append_iff]
  cases x with
  | error e =>
    have present : First faults e := (first e).1 rfl
    rw [← first failure]
    exact ⟨fun same => .inl (congrArg _ (Except.error.inj same)), fun
      | .inl same => congrArg _ (Except.error.inj same)
      | .inr ⟨absent, _⟩ => absurd present (absent e)⟩
  | ok a =>
    have absent (failure : ε) : ¬First faults failure := fun found => nomatch (first failure).2 found
    exact (next a rfl failure).trans ⟨fun found => .inr ⟨absent, found⟩, fun
      | .inl found => absurd found (absent failure)
      | .inr ⟨_, found⟩ => found⟩

/-- Computing on every member reports the faults of the members in order. -/
theorem mapM {f : α → Except ε β} {l : List α} {faults : α → List (ε → Prop)}
    (each : ∀ a ∈ l, (f a).Reports (faults a)) : (l.mapM f).Reports (l.flatMap faults) := by
  induction l with
  | nil => exact ok []
  | cons a l ih =>
    obtain ⟨here, rest⟩ := List.forall_mem_cons.1 each
    rw [List.mapM_cons, List.flatMap_cons]
    refine here.bind fun b _ => ?_
    have others := (ih rest).bind fun bs _ => ok (b :: bs)
    rwa [List.append_nil] at others

end Reports

end Except
