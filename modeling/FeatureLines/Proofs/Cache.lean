import Mathlib.Data.List.Basic
import FeatureLines.Cache

/-!
# Stored results

What a request can come to is said once, by `Cache.getOrCompute_cases`. What holds of every result when it is stored holds
of every result that a cache gives (`Cache.All`): whatever is looked up, stored or dropped, the entries of a cache are
entries that were there before or the one that was computed. `Cache.All.getOrCompute` says so for a whole request, whose
computation may use the cache itself.
-/

namespace FeatureLines

namespace Cache

variable {α η ρ ε : Type} {cmp : Comparer α η} {P : α → ρ → Prop} {c : Cache α η ρ} {x : α}

/-- Every stored result has a property together with its subject. -/
def All (P : α → ρ → Prop) (c : Cache α η ρ) : Prop := ∀ b ∈ c.buckets, ∀ entry ∈ b.entries, P entry.1 entry.2

/-- An empty cache stores nothing to the contrary. -/
lemma All.of_empty (empty : c.buckets = []) : c.All P := fun b mem => by
  rw [empty] at mem
  cases mem

/-- Buckets are dropped from the front only. -/
lemma dropUntilFits_suffix (bound : Nat) (buckets : List (Bucket α η ρ)) (size : Nat) :
    (dropUntilFits bound buckets size).1 <:+ buckets := by
  induction buckets generalizing size with
  | nil => exact List.suffix_refl []
  | cons b rest ih =>
    unfold dropUntilFits
    split
    · exact (ih _).trans (List.suffix_cons b rest)
    · exact List.suffix_refl _

/-- Dropping buckets does not touch the others. -/
lemma All.evict (h : c.All P) : c.evict.All P := by
  unfold Cache.evict
  cases c.bound with
  | none => exact h
  | some bound =>
    -- buckets are dropped from the back, so those that stay are a suffix of the reversed list
    intro b mem
    exact h b (List.mem_reverse.1 ((dropUntilFits_suffix bound c.buckets.reverse c.size).subset (List.mem_reverse.1 mem)))

variable [DecidableEq η]

/-- The cache in which the result for a subject is computed that was not found. -/
def missed (cmp : Comparer α η) (x : α) (c : Cache α η ρ) : Cache α η ρ :=
  { (c.lookup cmp x).1 with misses := (c.lookup cmp x).1.misses + 1 }

/-- What a request can come to: a hit, a failure, a result that was stored in the meantime, or a new one. -/
theorem getOrCompute_cases (cmp : Comparer α η) (x : α) (compute : Cache α η ρ → Cache α η ρ × Except ε ρ)
    (c : Cache α η ρ) :
    (∃ result, (c.lookup cmp x).2 = some result ∧
      c.getOrCompute cmp x compute =
        ({ (c.lookup cmp x).1 with hits := (c.lookup cmp x).1.hits + 1 }, .ok result)) ∨
    (∃ c' failure, (c.lookup cmp x).2 = none ∧ compute (c.missed cmp x) = (c', .error failure) ∧
      c.getOrCompute cmp x compute = (c', .error failure)) ∨
    (∃ c' result stored, (c.lookup cmp x).2 = none ∧ compute (c.missed cmp x) = (c', .ok result) ∧
      (c'.lookup cmp x).2 = some stored ∧ c.getOrCompute cmp x compute = ((c'.lookup cmp x).1, .ok stored)) ∨
    ∃ c' result, (c.lookup cmp x).2 = none ∧ compute (c.missed cmp x) = (c', .ok result) ∧
      (c'.lookup cmp x).2 = none ∧
      c.getOrCompute cmp x compute = ((c'.lookup cmp x).1.insert cmp x result, .ok result) := by
  unfold Cache.getOrCompute missed
  rcases c.lookup cmp x with ⟨looked, found⟩
  cases found with
  | some result => exact .inl ⟨result, rfl, rfl⟩
  | none =>
    simp only
    rcases compute { looked with misses := looked.misses + 1 } with ⟨c', computed⟩
    cases computed with
    | error failure => exact .inr (.inl ⟨c', failure, trivial, rfl, rfl⟩)
    | ok result =>
      simp only
      cases again : c'.lookup cmp x with
      | mk looked' found' =>
        cases found' with
        | some stored => exact .inr (.inr (.inl ⟨c', result, stored, trivial, rfl, by rw [again], by rw [again]⟩))
        | none => exact .inr (.inr (.inr ⟨c', result, trivial, rfl, by rw [again], by rw [again]⟩))

namespace All

/-- A bucket that moves to the front may have new entries if they have the property. -/
lemma use (h : c.All P) {b : Bucket α η ρ} (own : ∀ entry ∈ b.entries, P entry.1 entry.2) : (c.use b).All P := by
  intro b' mem
  rcases List.mem_cons.1 mem with rfl | mem
  · exact own
  · exact h b' (List.mem_of_mem_eraseP mem)

lemma bucket? (h : c.All P) {hash : η} {b : Bucket α η ρ} (found : c.bucket? hash = some b) :
    ∀ entry ∈ b.entries, P entry.1 entry.2 := h b (List.mem_of_find?_eq_some found)

/-- A result that is found was stored for an equal subject. -/
lemma lookup (h : c.All P) (cmp : Comparer α η) (x : α) :
    (c.lookup cmp x).1.All P ∧ ∀ result, (c.lookup cmp x).2 = some result → ∃ y, P y result ∧ cmp.equals y x = true := by
  unfold Cache.lookup
  cases found : c.bucket? (cmp.hashOf x) with
  | none => exact ⟨h, fun _ hit => by cases hit⟩
  | some b =>
    refine ⟨h.use (h.bucket? found), fun result hit => ?_⟩
    obtain ⟨entry, stored, rfl⟩ := Option.map_eq_some_iff.1 hit
    have equal := List.find?_some stored
    exact ⟨entry.1, h.bucket? found entry (List.mem_of_find?_eq_some stored), equal⟩

/-- Storing a result that has the property keeps it for all. -/
lemma insert (h : c.All P) (cmp : Comparer α η) {result : ρ} (new : P x result) : (c.insert cmp x result).All P := by
  refine evict (c := { c.use ⟨cmp.hashOf x, _⟩ with size := c.size + 1 }) ?_
  refine h.use fun entry mem => ?_
  rcases List.mem_append.1 mem with old | here
  · cases found : c.bucket? (cmp.hashOf x) with
    | none =>
      rw [found] at old
      cases old
    | some b =>
      rw [found] at old
      exact h.bucket? found entry old
  · rw [List.mem_singleton.1 here]
    exact new

/-- A request gives a result that has the property for an equal subject, or the failure of the computation. -/
theorem getOrCompute (h : c.All P) (cmp : Comparer α η) (x : α) (compute : Cache α η ρ → Cache α η ρ × Except ε ρ)
    (computes : ∀ cache : Cache α η ρ, cache.All P →
      (compute cache).1.All P ∧ ∀ result, (compute cache).2 = .ok result → P x result) :
    (c.getOrCompute cmp x compute).1.All P ∧
      (∀ result, (c.getOrCompute cmp x compute).2 = .ok result → ∃ y, P y result ∧ (y = x ∨ cmp.equals y x = true)) ∧
      ∀ failure, (c.getOrCompute cmp x compute).2 = .error failure → ∃ cache, (compute cache).2 = .error failure := by
  obtain ⟨looked, hit⟩ := h.lookup cmp x
  have missed : (c.missed cmp x).All P := looked
  obtain ⟨after, made⟩ := computes _ missed
  rcases getOrCompute_cases cmp x compute c with ⟨result, found, eq⟩ | ⟨c', failure, -, ran, eq⟩ |
    ⟨c', result, stored, -, ran, found, eq⟩ | ⟨c', result, -, ran, -, eq⟩
  · rw [eq]
    obtain ⟨y, holds, equal⟩ := hit result found
    refine ⟨looked, fun given same => ?_, fun _ same => by cases same⟩
    cases same
    exact ⟨y, holds, .inr equal⟩
  · rw [ran] at after
    rw [eq]
    refine ⟨after, fun _ same => (by cases same), fun failure' same => ⟨c.missed cmp x, ?_⟩⟩
    rw [ran]
    exact same
  · rw [ran] at after
    -- the computation has stored a result itself, which is given in place of the one computed
    obtain ⟨looked, hit⟩ := after.lookup cmp x
    rw [eq]
    obtain ⟨y, holds, equal⟩ := hit stored found
    refine ⟨looked, fun given same => ?_, fun _ same => by cases same⟩
    cases same
    exact ⟨y, holds, .inr equal⟩
  · rw [ran] at after made
    rw [eq]
    have new := made result rfl
    refine ⟨(after.lookup cmp x).1.insert cmp new, fun given same => ?_, fun _ same => by cases same⟩
    cases same
    exact ⟨x, new, .inl rfl⟩

end All

/-! ## A first request and its repetition -/

/-- The first result is stored, since there is room for it. -/
lemma getOrCompute_empty (empty : c.buckets = []) (size : c.size = 0) (room : c.bound ≠ some 0) (cmp : Comparer α η) (x : α)
    (result : ρ) :
    c.getOrCompute cmp x (fun cache => (cache, (.ok result : Except ε ρ))) =
      ({ c with buckets := [⟨cmp.hashOf x, [(x, result)]⟩], size := 1, misses := c.misses + 1 }, .ok result) := by
  obtain ⟨buckets, size', bound, hits, misses⟩ := c
  cases empty
  cases size
  have kept : ∀ m, bound = some m → ¬m < 1 := fun m eq lt => room (by rw [eq, Nat.lt_one_iff.1 lt])
  cases bound with
  | none => rfl
  | some m => simp [Cache.getOrCompute, lookup, Cache.bucket?, insert, use, evict, dropUntilFits, kept m rfl]

/-- A stored result is given again. -/
lemma getOrCompute_stored {result : ρ} (stored : c.buckets = [⟨cmp.hashOf x, [(x, result)]⟩])
    (same : cmp.equals x x = true) (compute : Cache α η ρ → Cache α η ρ × Except ε ρ) :
    (c.getOrCompute cmp x compute).2 = .ok result := by
  simp [Cache.getOrCompute, lookup, Cache.bucket?, stored, same]

end Cache

end FeatureLines
