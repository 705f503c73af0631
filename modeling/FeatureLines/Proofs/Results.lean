import Mathlib.Data.List.Forall2

/-!
# Successful results

When a computation that may fail succeeds: each of its parts succeeds. These are the inversions by which a result of
several steps is taken apart. Computing on every member of a list relates the two lists member by member.
-/

namespace Except

variable {ε ε' α β : Type}

lemma bind_eq_ok {x : Except ε α} {f : α → Except ε β} {b : β} :
    x >>= f = .ok b ↔ ∃ a, x = .ok a ∧ f a = .ok b := by
  cases x with
  | error e => exact ⟨fun h => (by cases h), fun ⟨_, h, _⟩ => (by cases h)⟩
  | ok a => exact ⟨fun h => ⟨a, rfl, h⟩, fun ⟨_, h, h'⟩ => by cases h; exact h'⟩

lemma map_eq_ok {x : Except ε α} {f : α → β} {b : β} : x.map f = .ok b ↔ ∃ a, x = .ok a ∧ f a = b := by
  cases x with
  | error e => exact ⟨fun h => (by cases h), fun ⟨_, h, _⟩ => (by cases h)⟩
  | ok a => exact ⟨fun h => ⟨a, rfl, Except.ok.inj h⟩, fun ⟨_, h, h'⟩ => by cases h; exact congrArg _ h'⟩

lemma map_eq_error {x : Except ε α} {f : α → β} {e : ε} : x.map f = .error e ↔ x = .error e := by
  cases x with
  | error e => exact ⟨fun h => congrArg _ (Except.error.inj h), fun h => congrArg _ (Except.error.inj h)⟩
  | ok a => exact ⟨fun h => (by cases h), fun h => (by cases h)⟩

lemma mapError_eq_ok {x : Except ε α} {f : ε → ε'} {a : α} : x.mapError f = .ok a ↔ x = .ok a := by
  cases x with
  | error e => exact ⟨fun h => (by cases h), fun h => (by cases h)⟩
  | ok a => exact ⟨fun h => by cases h; rfl, fun h => by cases h; rfl⟩

lemma map_mapError (x : Except ε α) (f : ε → ε') (g : α → β) : (x.mapError f).map g = (x.map g).mapError f := by
  cases x <;> rfl

lemma map_map {γ : Type} (x : Except ε α) (f : α → β) (g : β → γ) : (x.map f).map g = x.map (g ∘ f) := by
  cases x <;> rfl

lemma map_bind {γ : Type} (x : Except ε α) (f : α → Except ε β) (g : β → γ) :
    (x >>= f).map g = x >>= fun a => (f a).map g := by
  cases x <;> rfl

lemma map_id' (x : Except ε α) : x.map id = x := by
  cases x <;> rfl

/-- Computing on every member succeeds when it succeeds on each. -/
lemma mapM_eq_ok {f : α → Except ε β} {l : List α} {r : List β} :
    l.mapM f = .ok r ↔ List.Forall₂ (fun a b => f a = .ok b) l r := by
  induction l generalizing r with
  | nil =>
    rw [List.mapM_nil, List.forall₂_nil_left_iff]
    exact ⟨fun h => by cases h; rfl, fun h => by rw [h]; rfl⟩
  | cons a l ih =>
    rw [List.mapM_cons, bind_eq_ok, List.forall₂_cons_left_iff]
    constructor
    · rintro ⟨b, first, rest⟩
      obtain ⟨bs, others, done⟩ := bind_eq_ok.1 rest
      cases done
      exact ⟨b, bs, first, ih.1 others, rfl⟩
    · rintro ⟨b, bs, first, others, rfl⟩
      exact ⟨b, first, bind_eq_ok.2 ⟨bs, ih.2 others, rfl⟩⟩

/-- Computing on every member depends on nothing but the results for them. -/
lemma mapM_congr {f g : α → Except ε β} {l : List α} (same : ∀ a ∈ l, f a = g a) : l.mapM f = l.mapM g := by
  induction l with
  | nil => rfl
  | cons a l ih =>
    obtain ⟨first, rest⟩ := List.forall_mem_cons.1 same
    rw [List.mapM_cons, List.mapM_cons, first, ih rest]

/-- Computing on members that were changed, where the change only changes the results. -/
lemma mapM_map_eq {f : α → Except ε β} {change : α → α} {g : β → β} (each : ∀ a, f (change a) = (f a).map g) (l : List α) :
    (l.map change).mapM f = (l.mapM f).map (List.map g) := by
  induction l with
  | nil => rfl
  | cons a l ih =>
    rw [List.map_cons, List.mapM_cons, List.mapM_cons, each, ih]
    cases f a with
    | error failure => rfl
    | ok b => cases l.mapM f <;> rfl

end Except

namespace List

variable {α β : Type} {R : α → β → Prop} {as : List α} {bs : List β}

/-- A member of the second list has a partner in the first. -/
lemma Forall₂.exists_of_mem_right (all : Forall₂ R as bs) {b : β} (mem : b ∈ bs) : ∃ a ∈ as, R a b := by
  induction all with
  | nil => cases mem
  | cons related _ ih =>
    rcases List.mem_cons.1 mem with rfl | mem
    · exact ⟨_, List.mem_cons_self, related⟩
    · obtain ⟨a, found, related⟩ := ih mem
      exact ⟨a, List.mem_cons_of_mem _ found, related⟩

/-- Where the first list has a member, the second has its partner. -/
lemma Forall₂.getElem? (all : Forall₂ R as bs) {i : Nat} {a : α} (found : as[i]? = some a) :
    ∃ b, bs[i]? = some b ∧ R a b := by
  induction all generalizing i with
  | nil => cases found
  | cons related _ ih =>
    cases i with
    | zero =>
      cases found
      exact ⟨_, rfl, related⟩
    | succ i => exact ih found

/-- A member of the second list may be replaced by one with the same partner. -/
lemma Forall₂.set (all : Forall₂ R as bs) {i : Nat} {b b' : β} (found : bs[i]? = some b) (new : ∀ a, R a b → R a b') :
    Forall₂ R as (bs.set i b') := by
  induction all generalizing i with
  | nil => exact .nil
  | cons related others ih =>
    cases i with
    | zero =>
      cases found
      exact .cons (new _ related) others
    | succ i => exact .cons related (ih found)

/-- Lists of one member each, one after the other. -/
lemma forall₂_flatMap {f : α → List β} (one : ∀ a ∈ as, ∃ b, f a = [b]) :
    Forall₂ (fun a b => f a = [b]) as (as.flatMap f) := by
  induction as with
  | nil => exact .nil
  | cons a as ih =>
    obtain ⟨⟨b, eq⟩, others⟩ := forall_mem_cons.1 one
    rw [flatMap_cons, eq]
    exact .cons eq (ih others)

lemma Forall₂.exists_of_mem_left (all : Forall₂ R as bs) {a : α} (mem : a ∈ as) : ∃ b ∈ bs, R a b :=
  exists_of_mem_right (R := fun b a => R a b) all.flip mem

/-- What is said of all members of one list is said of all their partners. -/
lemma Forall₂.forall_iff {P : α → Prop} {Q : β → Prop} (all : Forall₂ R as bs)
    (iff : ∀ a, ∀ b ∈ bs, R a b → (P a ↔ Q b)) : (∀ a ∈ as, P a) ↔ ∀ b ∈ bs, Q b := by
  induction all with
  | nil => simp
  | cons related _ ih =>
    rw [forall_mem_cons, forall_mem_cons, iff _ _ mem_cons_self related,
      ih fun a b mem => iff a b (mem_cons_of_mem _ mem)]

/-- What holds between any two members of the first list holds between their partners. -/
lemma Forall₂.pairwise {S : α → α → Prop} {T : β → β → Prop} (all : Forall₂ R as bs) (apart : as.Pairwise S)
    (carry : ∀ a ∈ as, ∀ a' ∈ as, ∀ b b', R a b → R a' b' → S a a' → T b b') : bs.Pairwise T := by
  induction all with
  | nil => exact .nil
  | @cons a b as bs related rest ih =>
    obtain ⟨first, others⟩ := pairwise_cons.1 apart
    refine pairwise_cons.2 ⟨fun b' mem => ?_, ih others fun a mem a' mem' =>
      carry a (mem_cons_of_mem _ mem) a' (mem_cons_of_mem _ mem')⟩
    obtain ⟨a', mem', related'⟩ := rest.exists_of_mem_right mem
    exact carry a mem_cons_self a' (mem_cons_of_mem _ mem') b b' related related' (first a' mem')

/-- Two relations that hold member by member, one after the other. -/
lemma Forall₂.comp {γ : Type} {S : β → γ → Prop} {T : α → γ → Prop} {cs : List γ} (first : Forall₂ R as bs)
    (second : Forall₂ S bs cs) (through : ∀ a, ∀ b ∈ bs, ∀ c, R a b → S b c → T a c) : Forall₂ T as cs := by
  induction first generalizing cs with
  | nil =>
    cases second
    exact .nil
  | cons related _ ih =>
    cases second with
    | cons onward rest =>
      exact .cons (through _ _ mem_cons_self _ related onward)
        (ih rest fun a b mem => through a b (mem_cons_of_mem _ mem))

end List
