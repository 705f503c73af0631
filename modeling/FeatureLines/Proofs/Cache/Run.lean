import Mathlib.Data.List.Induction
import FeatureLines.Proofs.Cache.Sound

/-!
# Runs of a cache

A run is a sequence of requests and clearings. A request is a hit exactly when an entry for an equal subject is stored, and
then the result of that entry is given and nothing is computed; otherwise the outcome of the computation is given, and a
result is stored (`Cache.Serves`). One request leads from a sound cache to a sound one, and so does a run by induction.

Main statement: `Cache.sound_run`.
-/

namespace FeatureLines

namespace Cache

variable {α η ρ ε : Type} [DecidableEq η] {cmp : Comparer α η} {c : Cache α η ρ} {x : α}

/-! ## Requests -/

/-- A request for a subject whose computation comes to an outcome. -/
def request (cmp : Comparer α η) (x : α) (outcome : Except ε ρ) (c : Cache α η ρ) : Cache α η ρ × Except ε ρ :=
  c.getOrCompute cmp x fun cache => (cache, outcome)

/-- A request runs its computation: one that fails makes the request fail. -/
def Computes (cmp : Comparer α η) (x : α) (c : Cache α η ρ) : Prop :=
  (c.request cmp x (.error () : Except Unit ρ)).2 = .error ()

@[simp] lemma lookup_size : (c.lookup cmp x).1.size = c.size := by
  obtain ⟨buckets, -, eq⟩ := lookup_frame cmp x c
  rw [eq]

@[simp] lemma lookup_bound : (c.lookup cmp x).1.bound = c.bound := by
  obtain ⟨buckets, -, eq⟩ := lookup_frame cmp x c
  rw [eq]

@[simp] lemma lookup_hits : (c.lookup cmp x).1.hits = c.hits := by
  obtain ⟨buckets, -, eq⟩ := lookup_frame cmp x c
  rw [eq]

@[simp] lemma lookup_misses : (c.lookup cmp x).1.misses = c.misses := by
  obtain ⟨buckets, -, eq⟩ := lookup_frame cmp x c
  rw [eq]

@[simp] lemma missed_size : (c.missed cmp x).size = c.size := lookup_size

@[simp] lemma missed_bound : (c.missed cmp x).bound = c.bound := lookup_bound

@[simp] lemma missed_hits : (c.missed cmp x).hits = c.hits := lookup_hits

@[simp] lemma missed_misses : (c.missed cmp x).misses = c.misses + 1 := congrArg (· + 1) lookup_misses

/-- Storing a result concerns buckets and their entries only. -/
lemma insert_frame (cmp : Comparer α η) (x : α) (result : ρ) (c : Cache α η ρ) :
    ∃ buckets size, c.insert cmp x result = { c with buckets, size } := by
  rw [insert_eq_evict]
  unfold evict
  split
  · exact ⟨_, _, rfl⟩
  · exact ⟨_, _, rfl⟩

@[simp] lemma insert_bound {result : ρ} : (c.insert cmp x result).bound = c.bound := by
  obtain ⟨buckets, size, eq⟩ := insert_frame cmp x result c
  rw [eq]

@[simp] lemma insert_hits {result : ρ} : (c.insert cmp x result).hits = c.hits := by
  obtain ⟨buckets, size, eq⟩ := insert_frame cmp x result c
  rw [eq]

@[simp] lemma insert_misses {result : ρ} : (c.insert cmp x result).misses = c.misses := by
  obtain ⟨buckets, size, eq⟩ := insert_frame cmp x result c
  rw [eq]

/-- A look that finds nothing moves a bucket at most, and no entry is lost. -/
lemma entries_missed : (c.missed cmp x).entries.Perm c.entries := entries_perm (lookup_perm cmp x c)

/-- The entries of the cache in which a result is stored. -/
lemma entries_missed_lookup : ((c.missed cmp x).lookup cmp x).1.entries.Perm c.entries :=
  (entries_perm (lookup_perm cmp x _)).trans entries_missed

/-- A found result is given whatever the computation is. -/
lemma getOrCompute_of_found {result : ρ} (found : (c.lookup cmp x).2 = some result)
    (compute : Cache α η ρ → Cache α η ρ × Except ε ρ) :
    c.getOrCompute cmp x compute = ({ (c.lookup cmp x).1 with hits := c.hits + 1 }, .ok result) := by
  rcases getOrCompute_cases cmp x compute c with ⟨result', same, eq⟩ | ⟨_, _, none, -⟩ | ⟨_, _, _, none, -⟩ |
    ⟨_, _, none, -⟩
  · rw [eq, lookup_hits, Option.some.inj (same.symm.trans found)]
  all_goals
    rw [found] at none
    cases none

section

variable (lawful : cmp.Lawful) (sound : c.Sound cmp) (fresh : ∀ entry ∈ c.entries, cmp.equals entry.1 x = false)

include lawful sound fresh

/-- A failed computation stores nothing. -/
lemma request_error (failure : ε) : c.request cmp x (.error failure) = (c.missed cmp x, .error failure) := by
  have missing := (sound.arranged.lookup_eq_none_iff lawful).2 fresh
  unfold request
  rcases getOrCompute_cases cmp x (fun cache => (cache, (.error failure : Except ε ρ))) c with ⟨_, found, -⟩ |
    ⟨c', failure', -, ran, eq⟩ | ⟨_, _, _, -, ran, -⟩ | ⟨_, _, -, ran, -⟩
  · rw [missing] at found
    cases found
  · cases ran
    exact eq
  · cases ran
  · cases ran

/-- A new result is stored. -/
lemma request_ok (result : ρ) :
    c.request cmp x (.ok result : Except ε ρ) = (((c.missed cmp x).lookup cmp x).1.insert cmp x result, .ok result) := by
  have missing := (sound.arranged.lookup_eq_none_iff lawful).2 fresh
  unfold request
  rcases getOrCompute_cases cmp x (fun cache => (cache, (.ok result : Except ε ρ))) c with ⟨_, found, -⟩ |
    ⟨_, _, -, ran, -⟩ | ⟨c', _, stored, -, ran, found, -⟩ | ⟨c', _, -, ran, -, eq⟩
  · rw [missing] at found
    cases found
  · cases ran
  · cases ran
    -- nothing was stored in the meantime, so the second look finds nothing either
    have still : ((c.missed cmp x).lookup cmp x).2 = none :=
      ((sound.missed x).arranged.lookup_eq_none_iff lawful).2 fun entry mem => fresh entry (entries_missed.subset mem)
    rw [still] at found
    cases found
  · cases ran
    exact eq

end

/-- A request does not change the bound, whatever its computation comes to. -/
@[simp] lemma request_bound (outcome : Except ε ρ) : (c.request cmp x outcome).1.bound = c.bound := by
  unfold request
  rcases getOrCompute_cases cmp x (fun cache => (cache, outcome)) c with ⟨_, -, eq⟩ | ⟨_, _, -, ran, eq⟩ |
    ⟨_, _, _, -, ran, -, eq⟩ | ⟨_, _, -, ran, -, eq⟩
  · rw [eq]
    exact lookup_bound
  all_goals
    cases ran
    simp [eq]

/-- A request runs its computation exactly when no entry is for an equal subject. -/
lemma computes_iff (lawful : cmp.Lawful) (sound : c.Sound cmp) :
    c.Computes cmp x ↔ ∀ entry ∈ c.entries, cmp.equals entry.1 x = false := by
  constructor
  · intro runs
    rw [← sound.arranged.lookup_eq_none_iff lawful]
    cases found : (c.lookup cmp x).2 with
    | none => rfl
    | some result =>
      unfold Computes request at runs
      rw [getOrCompute_of_found found] at runs
      cases runs
  · intro fresh
    unfold Computes
    rw [request_error lawful sound fresh]

/-- What a request to a cache comes to when its computation would come to an outcome. -/
structure Serves (cmp : Comparer α η) (c : Cache α η ρ) (x : α) (outcome : Except ε ρ) : Prop where
  /-- Without its computation a request is a hit, whatever the computation is. -/
  hit : ¬c.Computes cmp x →
    (c.request cmp x outcome).1.hits = c.hits + 1 ∧ (c.request cmp x outcome).1.misses = c.misses ∧
      ∀ compute : Cache α η ρ → Cache α η ρ × Except ε ρ, c.getOrCompute cmp x compute = c.request cmp x outcome
  /-- With its computation it is a miss and gives the outcome. -/
  miss : c.Computes cmp x →
    (c.request cmp x outcome).1.misses = c.misses + 1 ∧ (c.request cmp x outcome).1.hits = c.hits ∧
      (c.request cmp x outcome).2 = outcome
  /-- A result that is stored for an equal subject is given. -/
  again : ∀ y result, (y, result) ∈ c.entries → cmp.equals y x = true →
    ¬c.Computes cmp x ∧ (c.request cmp x outcome).2 = .ok result
  /-- A hit and a failed computation add and remove no entry. -/
  idle : (c.Computes cmp x → ∀ result, outcome ≠ .ok result) → (c.request cmp x outcome).1.entries.Perm c.entries
  /-- A computed result is one entry more. Entries go only when the cache was full. -/
  grown : c.Computes cmp x → ∀ result, outcome = .ok result →
    ∃ dropped, ((c.request cmp x outcome).1.entries ++ dropped).Perm ((x, result) :: c.entries) ∧
      (c.bound ≠ some c.size → dropped = [])
  /-- A bucket that is dropped for a new result has no more entries than are counted by then. -/
  counted : ∀ result bound, c.bound = some bound →
    let full := ((c.missed cmp x).lookup cmp x).1.stored cmp x result
    DropsCounted bound full.buckets.reverse full.size

namespace Sound

variable (lawful : cmp.Lawful) (sound : c.Sound cmp)

include lawful sound

/-- A sound cache is sound after a request. -/
lemma request (x : α) (outcome : Except ε ρ) : (c.request cmp x outcome).1.Sound cmp :=
  sound.getOrCompute lawful x _ fun _ h => h

/-- An entry for an equal subject, or none. -/
lemma hit_or_fresh (x : α) :
    (∃ y result, (y, result) ∈ c.entries ∧ cmp.equals y x = true) ∨ ∀ entry ∈ c.entries, cmp.equals entry.1 x = false := by
  rw [← sound.arranged.lookup_eq_none_iff lawful]
  cases found : (c.lookup cmp x).2 with
  | none => exact .inr rfl
  | some result =>
    obtain ⟨y, stored, equal⟩ := (sound.arranged.lookup_eq_some_iff lawful).1 found
    exact .inl ⟨y, result, stored, equal⟩

/-- What a request comes to: a hit, a failed computation, or a result that is stored. -/
theorem serves (x : α) (outcome : Except ε ρ) : c.Serves cmp x outcome := by
  have runs := computes_iff lawful sound (x := x)
  have again (y : α) (result : ρ) (stored : (y, result) ∈ c.entries) (equal : cmp.equals y x = true) :
      ¬c.Computes cmp x ∧ (c.request cmp x outcome).2 = .ok result := by
    have found := (sound.arranged.lookup_eq_some_iff lawful).2 ⟨y, stored, equal⟩
    refine ⟨fun computes => Bool.eq_false_iff.1 (runs.1 computes _ stored) equal, ?_⟩
    unfold Cache.request
    rw [getOrCompute_of_found found]
  have counted (result : ρ) (bound : Nat) (_ : c.bound = some bound) :
      let full := ((c.missed cmp x).lookup cmp x).1.stored cmp x result
      DropsCounted bound full.buckets.reverse full.size := by
    intro full
    have size : full.size = total full.buckets.reverse := by
      rw [total_reverse, total_stored, ← ((sound.missed x).lookup x).counted]
      rfl
    rw [size]
    exact dropsCounted_total bound _
  rcases sound.hit_or_fresh lawful x with ⟨y, result, stored, equal⟩ | fresh
  · have found := (sound.arranged.lookup_eq_some_iff lawful).2 ⟨y, stored, equal⟩
    have given := getOrCompute_of_found (ε := ε) found
    have request : c.request cmp x outcome = ({ (c.lookup cmp x).1 with hits := c.hits + 1 }, .ok result) := given _
    have idle := (again y result stored equal).1
    refine ⟨fun _ => ?_, fun computes => absurd computes idle, again, fun _ => ?_, fun computes => absurd computes idle,
      counted⟩
    · rw [request]
      exact ⟨rfl, lookup_misses, given⟩
    · rw [request]
      exact entries_perm (lookup_perm cmp x c)
  · have computes := runs.2 fresh
    cases outcome with
    | error failure =>
      have request := request_error lawful sound fresh failure
      refine ⟨fun hit => absurd computes hit, fun _ => ?_, again, fun _ => ?_, fun _ _ ok => (by cases ok), counted⟩
      · rw [request]
        exact ⟨missed_misses, missed_hits, rfl⟩
      · rw [request]
        exact entries_missed
    | ok result =>
      have request := request_ok (ε := ε) lawful sound fresh result
      refine ⟨fun hit => absurd computes hit, fun _ => ?_, again, fun none => absurd rfl (none computes result),
        fun _ result' same => ?_, counted⟩
      · rw [request]
        simp
      · cases same
        have still : ∀ entry ∈ ((c.missed cmp x).lookup cmp x).1.entries, cmp.equals entry.1 x = false :=
          fun entry mem => fresh entry (entries_missed_lookup.subset mem)
        obtain ⟨-, dropped, perm, room⟩ := ((sound.missed x).lookup x).insert_spec still result
        rw [request]
        refine ⟨dropped, perm.trans (entries_missed_lookup.cons _), fun some_room => room ?_⟩
        simpa using some_room

end Sound

/-! ## Runs -/

/-- A request for a subject with the outcome that its computation would have, or a clearing. -/
inductive Operation (α ε ρ : Type) where
  | request (x : α) (outcome : Except ε ρ)
  | clear

namespace Operation

def apply (cmp : Comparer α η) (c : Cache α η ρ) : Operation α ε ρ → Cache α η ρ
  | .request x outcome => (c.request cmp x outcome).1
  | .clear => c.clear

def isRequest : Operation α ε ρ → Bool
  | .request .. => true
  | .clear => false

end Operation

/-- The cache after a run. -/
def run (cmp : Comparer α η) (c : Cache α η ρ) (operations : List (Operation α ε ρ)) : Cache α η ρ :=
  operations.foldl (Operation.apply cmp) c

lemma run_append_singleton (cmp : Comparer α η) (c : Cache α η ρ) (operations : List (Operation α ε ρ))
    (operation : Operation α ε ρ) : c.run cmp (operations ++ [operation]) = operation.apply cmp (c.run cmp operations) := by
  simp [run]

/-- In a run, the computation for a subject came to a result. -/
def Produced (cmp : Comparer α η) (c : Cache α η ρ) (operations : List (Operation α ε ρ)) (x : α) (result : ρ) : Prop :=
  ∃ before after, operations = before ++ .request x (.ok result) :: after ∧ (c.run cmp before).Computes cmp x

/-- What came to a result did so also in a longer run. -/
lemma Produced.append {operations : List (Operation α ε ρ)} {result : ρ} (h : Produced cmp c operations x result)
    (others : List (Operation α ε ρ)) : Produced cmp c (operations ++ others) x result := by
  obtain ⟨before, after, rfl, computes⟩ := h
  exact ⟨before, after ++ others, by simp, computes⟩

section

variable {bound : Option Nat} (lawful : cmp.Lawful) (new : Cache.new bound = .ok c)

include lawful new

/-- Whatever happens to a new cache, it stays sound. -/
lemma Sound.run (operations : List (Operation α ε ρ)) : (c.run cmp operations).Sound cmp := by
  induction operations using List.reverseRecOn with
  | nil => exact .new new cmp
  | append_singleton operations operation ih =>
    rw [run_append_singleton]
    cases operation with
    | request x outcome => exact ih.request lawful x outcome
    | clear => exact .clear _ cmp

omit lawful in
/-- The bound of a cache is the one that it was made with. -/
lemma bound_run (operations : List (Operation α ε ρ)) : (c.run cmp operations).bound = bound := by
  induction operations using List.reverseRecOn with
  | nil =>
    obtain ⟨rfl, -⟩ := new_eq_ok new
    rfl
  | append_singleton operations operation ih =>
    rw [run_append_singleton, ← ih]
    cases operation with
    | clear => rfl
    | request x outcome => exact request_bound outcome

/-- Every request is a hit or a miss. -/
lemma hits_add_misses_run (operations : List (Operation α ε ρ)) :
    (c.run cmp operations).hits + (c.run cmp operations).misses = operations.countP Operation.isRequest := by
  induction operations using List.reverseRecOn with
  | nil =>
    obtain ⟨rfl, -⟩ := new_eq_ok new
    rfl
  | append_singleton operations operation ih =>
    rw [run_append_singleton, List.countP_append, ← ih]
    cases operation with
    | clear => rfl
    | request x outcome =>
      have serves := (Sound.run lawful new operations).serves lawful x outcome
      unfold Operation.apply
      by_cases computes : (c.run cmp operations).Computes cmp x
      · obtain ⟨misses, hits, -⟩ := serves.miss computes
        rw [hits, misses]
        rfl
      · obtain ⟨hits, misses, -⟩ := serves.hit computes
        rw [hits, misses]
        exact Nat.add_right_comm _ _ _

/-- Every stored result was computed in the run for its subject. -/
lemma produced_of_mem_run (operations : List (Operation α ε ρ)) {result : ρ} :
    (x, result) ∈ (c.run cmp operations).entries → Produced cmp c operations x result := by
  induction operations using List.reverseRecOn with
  | nil =>
    obtain ⟨rfl, -⟩ := new_eq_ok new
    nofun
  | append_singleton operations operation ih =>
    rw [run_append_singleton]
    intro mem
    cases operation with
    | clear => cases mem
    | request y outcome =>
      have serves := (Sound.run lawful new operations).serves lawful y outcome
      by_cases made : (c.run cmp operations).Computes cmp y ∧ ∃ computed, outcome = .ok computed
      · obtain ⟨computes, computed, rfl⟩ := made
        obtain ⟨dropped, perm, -⟩ := serves.grown computes computed rfl
        rcases List.mem_cons.1 (perm.subset (List.mem_append_left dropped mem)) with here | old
        · cases here
          exact ⟨operations, [], rfl, computes⟩
        · exact (ih old).append _
      · have idle := serves.idle fun computes computed ok => made ⟨computes, computed, ok⟩
        exact (ih (idle.subset mem)).append _

/-- In a run from an empty cache, the entries are counted, in the buckets of their hashes, for subjects of which no two are
equal, and within the bound; every request is a hit or a miss; and a request for which a result is given has one that was
computed in the run, for an equal subject. -/
theorem sound_run (operations : List (Operation α ε ρ)) :
    let after := c.run cmp operations
    after.Sound cmp ∧ after.bound = bound ∧ (after.entries.Pairwise fun a a' => cmp.equals a.1 a'.1 = false) ∧
      after.hits + after.misses = operations.countP Operation.isRequest ∧
      ∀ x (outcome : Except ε ρ), after.Serves cmp x outcome ∧
        ∀ result, (after.request cmp x outcome).2 = .ok result →
          ∃ y, Produced cmp c (operations ++ [.request x outcome]) y result ∧ cmp.equals y x = true := by
  intro after
  have sound : after.Sound cmp := Sound.run lawful new operations
  refine ⟨sound, bound_run new operations, sound.arranged.pairwise lawful, hits_add_misses_run lawful new operations,
    fun x outcome => ?_⟩
  have serves := sound.serves lawful x outcome
  refine ⟨serves, fun result given => ?_⟩
  rcases sound.hit_or_fresh lawful x with ⟨y, stored, mem, equal⟩ | fresh
  · rw [(serves.again y stored mem equal).2] at given
    cases given
    exact ⟨y, (produced_of_mem_run lawful new operations mem).append _, equal⟩
  · have computes := (computes_iff lawful sound).2 fresh
    rw [(serves.miss computes).2.2] at given
    cases given
    exact ⟨x, ⟨operations, [], rfl, computes⟩, lawful.refl x⟩

end

/-- Numbers, hashed by their parity. -/
def parity : Comparer Nat Nat := ⟨fun a b => a == b, fun n => n % 2⟩

/-- Equality is an equivalence, and equal numbers have one parity. -/
lemma parity_lawful : parity.Lawful where
  refl x := beq_self_eq_true x
  symm equal := beq_iff_eq.2 (beq_iff_eq.1 equal).symm
  trans equal equal' := beq_iff_eq.2 ((beq_iff_eq.1 equal).trans (beq_iff_eq.1 equal'))
  hash equal := congrArg (· % 2) (beq_iff_eq.1 equal)

/-- Two odd numbers share the one bucket of a full cache. A third one goes there too, and then the bucket is dropped. -/
theorem sound_run_parity :
    let new : Cache Nat Nat String := ⟨[], 0, some 2, 0, 0⟩
    let operations : List (Operation Nat String String) :=
      [.request 1 (.ok "one"), .request 3 (.ok "three"), .request 1 (.error "lost"), .request 2 (.error "lost")]
    let after := new.run parity operations
    parity.Lawful ∧ Cache.new (some 2) = .ok new ∧ after.entries = [(1, "one"), (3, "three")] ∧ after.hits = 1 ∧
      after.misses = 3 ∧ (after.request parity 5 (.ok "five" : Except String String)).1.entries = [] ∧
      after.Sound parity ∧ after.Serves parity 5 (.ok "five" : Except String String) := by
  intro new operations after
  have made : Cache.new (some 2) = .ok new := rfl
  obtain ⟨sound, -, -, -, served⟩ := sound_run parity_lawful made operations
  exact ⟨parity_lawful, made, by decide +kernel, by decide +kernel, by decide +kernel, by decide +kernel, sound,
    (served 5 (.ok "five")).1⟩

end Cache

end FeatureLines
