import FeatureLines.Proofs.Cache.Run

/-!
# Results that outlast their insertion

A result that was just stored lies in the bucket that was used last, which is the last one to be dropped. So it is dropped
only when that bucket alone has more entries than there may be, and then every bucket is. The other entries of the bucket
are the rivals of the subject: those of its hash that are for other subjects (`Cache.rivals`).

Main statement: `Cache.answers_again_iff`, a result is given again to the next request exactly if there is room for it and
its rivals. `Cache.not_answers_again` is a cache that computes a result twice in a row.
-/

namespace FeatureLines

namespace Cache

variable {α η ρ ε : Type} {cmp : Comparer α η} {c : Cache α η ρ} {x y : α} {result : ρ}

/-! ## The bucket in front -/

/-- The last bucket of a list is not dropped when it fits alone. -/
lemma dropUntilFits_concat {bound : Nat} (buckets : List (Bucket α η ρ)) {b : Bucket α η ρ}
    (room : b.entries.length ≤ bound) :
    ∃ kept, (dropUntilFits bound (buckets ++ [b]) (total (buckets ++ [b]))).1 = kept ++ [b] := by
  induction buckets with
  | nil =>
    have fits : ¬bound < total [b] := by
      rw [total_cons]
      exact Nat.not_lt.2 room
    rw [List.nil_append, dropUntilFits, if_neg fits]
    exact ⟨[], rfl⟩
  | cons first rest ih =>
    rw [List.cons_append, dropUntilFits]
    split
    · rw [total_cons, Nat.add_sub_cancel_left]
      exact ih
    · exact ⟨first :: rest, rfl⟩

/-- Eviction spares the bucket in front when that fits alone, and no bucket when it does not. -/
lemma evict_front {b : Bucket α η ρ} {others : List (Bucket α η ρ)} (buckets : c.buckets = b :: others)
    (counted : c.size = total c.buckets) :
    ((∀ bound, c.bound = some bound → b.entries.length ≤ bound) → b ∈ c.evict.buckets) ∧
      ((∃ bound, c.bound = some bound ∧ bound < b.entries.length) → c.evict.buckets = []) := by
  constructor
  · intro room
    unfold evict
    cases limit : c.bound with
    | none =>
      rw [buckets]
      exact List.mem_cons_self
    | some bound =>
      obtain ⟨kept, eq⟩ := dropUntilFits_concat others.reverse (room bound limit)
      rw [← List.reverse_cons, ← buckets, total_reverse, ← counted] at eq
      simp only [eq, List.reverse_append, List.mem_append]
      exact .inl (List.mem_singleton_self b)
  · rintro ⟨bound, limit, excess⟩
    obtain ⟨kept, dropped, split, eq, fits, -⟩ := evict_spec counted
    rw [eq]
    cases kept with
    | nil => rfl
    | cons first rest =>
      -- the first bucket that is kept is the one in front, which has too many entries
      rw [buckets, List.cons_append, List.cons.injEq] at split
      have within := fits bound limit
      rw [total_cons, ← split.1] at within
      omega

/-! ## Rivals -/

variable [DecidableEq η]

/-- How many entries are for subjects of the same hash that are not equal. -/
def rivals (cmp : Comparer α η) (x : α) (c : Cache α η ρ) : Nat :=
  c.entries.countP fun entry => cmp.hashOf entry.1 = cmp.hashOf x ∧ cmp.equals entry.1 x = false

lemma rivals_perm {d : Cache α η ρ} (perm : c.entries.Perm d.entries) : c.rivals cmp x = d.rivals cmp x :=
  perm.countP_eq _

/-- The entries of a hash are those of its bucket. -/
lemma Arranged.countP_hash (h : Arranged cmp c.buckets) (hash : η) :
    (c.entries.countP fun entry => cmp.hashOf entry.1 = hash) =
      (((c.bucket? hash).map Bucket.entries).getD []).length := by
  have other {buckets : List (Bucket α η ρ)} (placed : ∀ b ∈ buckets, ∀ entry ∈ b.entries, cmp.hashOf entry.1 = b.hash)
      (apart : ∀ b ∈ buckets, b.hash ≠ hash) :
      ((buckets.flatMap Bucket.entries).countP fun entry => cmp.hashOf entry.1 = hash) = 0 := by
    refine List.countP_eq_zero.2 fun entry mem => ?_
    obtain ⟨b, bucket, here⟩ := List.mem_flatMap.1 mem
    rw [placed b bucket entry here, decide_eq_true_iff]
    exact apart b bucket
  rcases c.bucket?_spec hash with ⟨none, apart, -⟩ | ⟨b, found, own, perm⟩
  · rw [none]
    exact other h.placed apart
  · have front := h.perm perm
    have apart : ∀ b' ∈ c.buckets.eraseP (fun b => b.hash = hash), b'.hash ≠ hash := fun b' mem same =>
      (List.nodup_cons.1 front.hashes).1 (List.mem_map.2 ⟨b', mem, same.trans own.symm⟩)
    have here : (b.entries.countP fun entry => cmp.hashOf entry.1 = hash) = b.entries.length := by
      refine List.countP_eq_length.2 fun entry mem => decide_eq_true ?_
      rw [front.placed b List.mem_cons_self entry mem, own]
    rw [found]
    unfold entries
    rw [← (perm.flatMap_right Bucket.entries).countP_eq, List.flatMap_cons, List.countP_append, here,
      other (List.forall_mem_cons.1 front.placed).2 apart]
    rfl

/-- With no entry for an equal subject, every entry of its hash is a rival. -/
lemma Arranged.rivals_eq (h : Arranged cmp c.buckets) (fresh : ∀ entry ∈ c.entries, cmp.equals entry.1 x = false) :
    c.rivals cmp x = (((c.bucket? (cmp.hashOf x)).map Bucket.entries).getD []).length := by
  rw [← h.countP_hash]
  refine List.countP_congr fun entry mem => ?_
  simp [fresh entry mem]

namespace Sound

/-- A result that is stored for a subject without one stays if it fits together with the rivals of the subject. If not,
nothing stays. -/
theorem insert_rivals (sound : c.Sound cmp) (fresh : ∀ entry ∈ c.entries, cmp.equals entry.1 x = false) (result : ρ) :
    ((∀ bound, c.bound = some bound → c.rivals cmp x < bound) → (x, result) ∈ (c.insert cmp x result).entries) ∧
      ((∃ bound, c.bound = some bound ∧ bound ≤ c.rivals cmp x) → (c.insert cmp x result).entries = []) := by
  have counted : (c.stored cmp x result).size = total (c.stored cmp x result).buckets := by
    rw [total_stored, ← sound.counted]
    rfl
  have length : (((c.bucket? (cmp.hashOf x)).map Bucket.entries).getD [] ++ [(x, result)]).length =
      c.rivals cmp x + 1 := by
    rw [List.length_append, ← sound.arranged.rivals_eq fresh]
    rfl
  obtain ⟨stays, goes⟩ := evict_front (c := c.stored cmp x result) rfl counted
  simp only [length] at stays goes
  rw [insert_eq_evict]
  constructor
  · intro room
    exact mem_entries.2 ⟨_, stays room, List.mem_append_right _ (List.mem_singleton_self _)⟩
  · rintro ⟨bound, limit, many⟩
    unfold entries
    rw [goes ⟨bound, limit, Nat.lt_succ_of_le many⟩]
    rfl

/-- A stored subject has room beside its rivals. -/
lemma rivals_lt (sound : c.Sound cmp) (stored : (y, result) ∈ c.entries) (equal : cmp.equals y x = true) {bound : Nat}
    (limit : c.bound = some bound) : c.rivals cmp x < bound := by
  have all : c.entries.length = c.size := by
    rw [sound.counted]
    exact List.length_flatMap
  have fewer : c.rivals cmp x ≠ c.entries.length := fun same => by
    have rival := of_decide_eq_true (List.countP_eq_length.1 same _ stored)
    exact Bool.eq_false_iff.1 rival.2 equal
  have within := sound.fits bound limit
  have most : c.rivals cmp x ≤ c.entries.length := List.countP_le_length
  omega

end Sound

/-! ## Requests that follow each other -/

/-- A request for a subject is a hit that gives a result, and runs no computation. -/
def Answers (cmp : Comparer α η) (c : Cache α η ρ) (x : α) (result : ρ) : Prop :=
  ¬c.Computes cmp x ∧ ∀ compute : Cache α η ρ → Cache α η ρ × Except ε ρ,
    c.getOrCompute cmp x compute = ({ (c.lookup cmp x).1 with hits := c.hits + 1 }, .ok result)

lemma Sound.answers (lawful : cmp.Lawful) (sound : c.Sound cmp) (stored : (y, result) ∈ c.entries)
    (equal : cmp.equals y x = true) : c.Answers (ε := ε) cmp x result := by
  have found := (sound.arranged.lookup_eq_some_iff lawful).2 ⟨y, stored, equal⟩
  refine ⟨fun computes => ?_, getOrCompute_of_found found⟩
  exact Bool.eq_false_iff.1 ((computes_iff lawful sound).1 computes _ stored) equal

/-- After a request that is given a result, the result is stored for an equal subject if it fits together with the rivals
of the subject. If not, nothing is stored. -/
theorem Sound.request_rivals (lawful : cmp.Lawful) (sound : c.Sound cmp) {outcome : Except ε ρ}
    (given : (c.request cmp x outcome).2 = .ok result) :
    ((∀ bound, c.bound = some bound → c.rivals cmp x < bound) →
        ∃ z, (z, result) ∈ (c.request cmp x outcome).1.entries ∧ cmp.equals z x = true) ∧
      ((∃ bound, c.bound = some bound ∧ bound ≤ c.rivals cmp x) → (c.request cmp x outcome).1.entries = []) := by
  rcases sound.hit_or_fresh lawful x with ⟨z, stored, mem, equal⟩ | fresh
  · have serves := sound.serves lawful x outcome
    obtain ⟨hit, same⟩ := serves.again z stored mem equal
    cases same.symm.trans given
    have kept := serves.idle fun computes => absurd computes hit
    refine ⟨fun _ => ⟨z, kept.symm.subset mem, equal⟩, ?_⟩
    rintro ⟨bound, limit, many⟩
    exact absurd (sound.rivals_lt mem equal limit) (Nat.not_lt.2 many)
  · cases outcome with
    | error failure =>
      rw [request_error lawful sound fresh] at given
      cases given
    | ok computed =>
      rw [request_ok lawful sound fresh] at given ⊢
      cases given
      -- the two looks before the result is stored move buckets, and change no entry
      have still : ∀ entry ∈ ((c.missed cmp x).lookup cmp x).1.entries, cmp.equals entry.1 x = false :=
        fun entry mem => fresh entry (entries_missed_lookup.subset mem)
      obtain ⟨stays, goes⟩ := ((sound.missed x).lookup x).insert_rivals still result
      rw [rivals_perm entries_missed_lookup, lookup_bound, missed_bound] at stays goes
      exact ⟨fun room => ⟨x, stays room, lawful.refl x⟩, goes⟩

/-- In a run from an empty cache, a result that a request is given is given again to the next request for an equal subject
exactly if the bound leaves room for it and the rivals of the subject. If there is no room, the cache is empty after the
first request, and the second one computes. -/
theorem answers_again_iff (lawful : cmp.Lawful) {bound : Option Nat} (new : Cache.new bound = .ok c)
    (operations : List (Operation α ε ρ)) {outcome : Except ε ρ}
    (given : ((c.run cmp operations).request cmp x outcome).2 = .ok result) (equal : cmp.equals x y = true) :
    let before := c.run cmp operations
    let after := (before.request cmp x outcome).1
    (after.Answers (ε := ε) cmp y result ↔ ∀ m, bound = some m → before.rivals cmp x < m) ∧
      ((∃ m, bound = some m ∧ m ≤ before.rivals cmp x) → after.entries = [] ∧ after.Computes cmp y) := by
  intro before after
  have sound : before.Sound cmp := Sound.run lawful new operations
  have limit : before.bound = bound := bound_run new operations
  obtain ⟨stays, goes⟩ := sound.request_rivals lawful given
  rw [limit] at stays goes
  have sound' : after.Sound cmp := sound.request lawful x outcome
  have empty (full : ∃ m, bound = some m ∧ m ≤ before.rivals cmp x) : after.entries = [] ∧ after.Computes cmp y := by
    have none : after.entries = [] := goes full
    refine ⟨none, (computes_iff lawful sound').2 fun entry mem => ?_⟩
    rw [none] at mem
    cases mem
  refine ⟨⟨fun answers m same => ?_, fun room => ?_⟩, empty⟩
  · by_contra many
    exact answers.1 (empty ⟨m, same, Nat.le_of_not_lt many⟩).2
  · obtain ⟨z, stored, same⟩ := stays room
    exact sound'.answers lawful stored (lawful.trans same equal)

/-- Two odd numbers fit into a cache for two, so the second one is there when it is asked for again. -/
theorem answers_again_iff_parity :
    let new : Cache Nat Nat String := ⟨[], 0, some 2, 0, 0⟩
    let before := new.run parity [.request 2 (.ok "two"), .request 1 (.ok "one" : Except String String)]
    let after := (before.request parity 3 (.ok "three" : Except String String)).1
    parity.Lawful ∧ Cache.new (some 2) = .ok new ∧ before.rivals parity 3 = 1 ∧
      after.entries = [(1, "one"), (3, "three")] ∧ after.Answers (ε := String) parity 3 "three" := by
  intro new before after
  have made : Cache.new (some 2) = .ok new := rfl
  have given : (before.request parity 3 (.ok "three" : Except String String)).2 = .ok "three" := by decide +kernel
  obtain ⟨again, -⟩ := answers_again_iff parity_lawful made
    [.request 2 (.ok "two"), .request 1 (.ok "one" : Except String String)] given (y := 3) rfl
  refine ⟨parity_lawful, made, by decide +kernel, by decide +kernel, again.2 fun m same => ?_⟩
  cases same
  decide +kernel

/-- Two odd numbers do not fit into a cache for one: the result for the second one is dropped as it is stored, with that for
the first, and it is computed once more when it is asked for again. -/
theorem not_answers_again :
    let new : Cache Nat Nat String := ⟨[], 0, some 1, 0, 0⟩
    let before := new.run parity [.request 1 (.ok "one" : Except String String)]
    let after := (before.request parity 3 (.ok "three" : Except String String)).1
    parity.Lawful ∧ Cache.new (some 1) = .ok new ∧
      (before.request parity 3 (.ok "three" : Except String String)).2 = .ok "three" ∧
      after.entries = [] ∧ after.Computes parity 3 ∧ ¬after.Answers (ε := String) parity 3 "three" := by
  intro new before after
  have computes : after.Computes parity 3 := by
    unfold Computes
    decide +kernel
  exact ⟨parity_lawful, rfl, by decide +kernel, by decide +kernel, computes, fun answers => answers.1 computes⟩

end Cache

end FeatureLines
