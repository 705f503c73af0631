import Mathlib.Algebra.GroupWithZero.Nat
import Mathlib.Data.List.Nodup
import Mathlib.Data.List.Pairwise
import FeatureLines.Proofs.Cache

/-!
# Sound caches

In a sound cache the number of entries that is kept beside the buckets is the number of entries in them, every bucket has
entries, all of its own hash, no two entries are for equal subjects, and the bound is kept (`Cache.Sound`). Looking a
subject up only moves a bucket to the front. A result that is stored for a subject without one adds an entry, and then
whole buckets go from the back, each with no more entries than are counted (`Cache.Sound.insert_spec`).

Main statement: `Cache.Sound.getOrCompute`, whatever sound use of the cache a computation makes, a request keeps it sound.
-/

namespace List

variable {α β : Type}

/-- The first member that passes a test may be put to the front. -/
lemma cons_eraseP_perm {p : α → Bool} {l : List α} {a : α} (found : l.find? p = some a) : (a :: l.eraseP p).Perm l := by
  obtain ⟨pass, before, after, rfl, others⟩ := find?_eq_some_iff_append.1 found
  rw [eraseP_append_right _ fun b mem => by simpa using others b mem, eraseP_cons_of_pos pass]
  exact perm_middle.symm

/-- The one member with a mark is found by it. -/
lemma find?_of_nodup_map [DecidableEq β] {f : α → β} {l : List α} (distinct : (l.map f).Nodup) {a : α} (mem : a ∈ l) :
    l.find? (fun b => f b = f a) = some a := by
  cases found : l.find? fun b => f b = f a with
  | none => exact absurd (find?_eq_none.1 found a mem) (by simp)
  | some b =>
    have same := find?_some found
    rw [inj_on_of_nodup_map distinct (mem_of_find?_eq_some found) mem (of_decide_eq_true same)]

end List

namespace FeatureLines

variable {α η ρ ε : Type} {cmp : Comparer α η}

/-- Equality of subjects is an equivalence, and equal subjects have one hash. -/
structure Comparer.Lawful (cmp : Comparer α η) : Prop where
  refl : ∀ x, cmp.equals x x = true
  symm : ∀ {x y}, cmp.equals x y = true → cmp.equals y x = true
  trans : ∀ {x y z}, cmp.equals x y = true → cmp.equals y z = true → cmp.equals x z = true
  hash : ∀ {x y}, cmp.equals x y = true → cmp.hashOf x = cmp.hashOf y

namespace Cache

/-- The stored subjects with their results. -/
def entries (c : Cache α η ρ) : List (α × ρ) := c.buckets.flatMap Bucket.entries

/-- The number of entries in some buckets. -/
def total (buckets : List (Bucket α η ρ)) : Nat := (buckets.map fun b => b.entries.length).sum

/-- Every bucket has entries, all of its own hash, and no two entries are for equal subjects. -/
structure Arranged (cmp : Comparer α η) (buckets : List (Bucket α η ρ)) : Prop where
  filled : ∀ b ∈ buckets, b.entries ≠ []
  placed : ∀ b ∈ buckets, ∀ entry ∈ b.entries, cmp.hashOf entry.1 = b.hash
  hashes : (buckets.map Bucket.hash).Nodup
  distinct : ∀ b ∈ buckets, b.entries.Pairwise fun a a' => cmp.equals a.1 a'.1 = false

/-- The buckets are arranged, their entries are counted, and the bound is kept. -/
structure Sound (cmp : Comparer α η) (c : Cache α η ρ) : Prop where
  arranged : Arranged cmp c.buckets
  counted : c.size = total c.buckets
  fits : ∀ bound, c.bound = some bound → c.size ≤ bound

lemma total_cons (b : Bucket α η ρ) (buckets : List (Bucket α η ρ)) :
    total (b :: buckets) = b.entries.length + total buckets := by simp [total]

lemma total_reverse (buckets : List (Bucket α η ρ)) : total buckets.reverse = total buckets := by
  simp [total, List.sum_reverse]

/-- The order of buckets does not count. -/
lemma total_perm {buckets buckets' : List (Bucket α η ρ)} (perm : buckets.Perm buckets') :
    total buckets = total buckets' := (perm.map _).sum_nat

/-- Caches with the same buckets in any order have the same entries. -/
lemma entries_perm {c d : Cache α η ρ} (perm : c.buckets.Perm d.buckets) : c.entries.Perm d.entries :=
  perm.flatMap_right _

lemma mem_entries {c : Cache α η ρ} {entry : α × ρ} : entry ∈ c.entries ↔ ∃ b ∈ c.buckets, entry ∈ b.entries :=
  List.mem_flatMap

namespace Arranged

variable {buckets buckets' : List (Bucket α η ρ)}

/-- The order of buckets has no say in whether they are arranged. -/
lemma perm (h : Arranged cmp buckets) (perm : buckets'.Perm buckets) : Arranged cmp buckets' where
  filled b mem := h.filled b (perm.subset mem)
  placed b mem := h.placed b (perm.subset mem)
  hashes := (perm.map _).nodup_iff.2 h.hashes
  distinct b mem := h.distinct b (perm.subset mem)

/-- Buckets stay arranged when others are dropped. -/
lemma sublist (h : Arranged cmp buckets) (sub : buckets'.Sublist buckets) : Arranged cmp buckets' where
  filled b mem := h.filled b (sub.subset mem)
  placed b mem := h.placed b (sub.subset mem)
  hashes := (sub.map _).nodup h.hashes
  distinct b mem := h.distinct b (sub.subset mem)

/-- A bucket of another hash may come to arranged ones. -/
lemma cons {b : Bucket α η ρ} (h : Arranged cmp buckets) (filled : b.entries ≠ [])
    (placed : ∀ entry ∈ b.entries, cmp.hashOf entry.1 = b.hash) (fresh : ∀ b' ∈ buckets, b'.hash ≠ b.hash)
    (distinct : b.entries.Pairwise fun a a' => cmp.equals a.1 a'.1 = false) : Arranged cmp (b :: buckets) where
  filled := List.forall_mem_cons.2 ⟨filled, h.filled⟩
  placed := List.forall_mem_cons.2 ⟨placed, h.placed⟩
  hashes := by
    rw [List.map_cons, List.nodup_cons]
    refine ⟨fun mem => ?_, h.hashes⟩
    obtain ⟨b', other, same⟩ := List.mem_map.1 mem
    exact fresh b' other same
  distinct := List.forall_mem_cons.2 ⟨distinct, h.distinct⟩

/-- A bucket takes an entry of its hash for a subject that none of its own is for. -/
lemma add {b : Bucket α η ρ} {others : List (Bucket α η ρ)} {x : α}
    (h : Arranged cmp (b :: others)) (own : cmp.hashOf x = b.hash)
    (fresh : ∀ entry ∈ b.entries, cmp.equals entry.1 x = false) (result : ρ) :
    Arranged cmp (⟨b.hash, b.entries ++ [(x, result)]⟩ :: others) where
  filled := List.forall_mem_cons.2 ⟨by simp, (List.forall_mem_cons.1 h.filled).2⟩
  placed := by
    obtain ⟨here, there⟩ := List.forall_mem_cons.1 h.placed
    refine List.forall_mem_cons.2 ⟨fun entry mem => ?_, there⟩
    rcases List.mem_append.1 mem with old | new
    · exact here entry old
    · rw [List.mem_singleton.1 new]
      exact own
  hashes := h.hashes
  distinct := by
    obtain ⟨here, there⟩ := List.forall_mem_cons.1 h.distinct
    refine List.forall_mem_cons.2 ⟨?_, there⟩
    rw [List.pairwise_append]
    refine ⟨here, List.pairwise_singleton _ _, fun entry old entry' new => ?_⟩
    rw [List.mem_singleton.1 new]
    exact fresh entry old

/-- Entries of two buckets differ in their hashes, so no two entries at all are for equal subjects. -/
lemma pairwise (lawful : cmp.Lawful) (h : Arranged cmp buckets) :
    (buckets.flatMap Bucket.entries).Pairwise fun a a' => cmp.equals a.1 a'.1 = false := by
  rw [List.pairwise_flatMap]
  refine ⟨h.distinct, (List.pairwise_map.1 h.hashes).imp_of_mem fun {b b'} mem mem' other => ?_⟩
  intro entry here entry' there
  apply Bool.eq_false_iff.2
  intro equal
  have hash := lawful.hash equal
  rw [h.placed b mem entry here, h.placed b' mem' entry' there] at hash
  exact other hash

end Arranged

/-- A new cache is empty and has room for an entry. -/
lemma new_eq_ok {bound : Option Nat} {c : Cache α η ρ} (new : Cache.new bound = .ok c) :
    c = ⟨[], 0, bound, 0, 0⟩ ∧ bound ≠ some 0 := by
  unfold Cache.new at new
  split at new
  · cases new
  · rename_i room
    cases new
    exact ⟨rfl, room⟩

namespace Sound

variable {c : Cache α η ρ}

/-- A new cache is sound. -/
lemma new {bound : Option Nat} (new : Cache.new bound = .ok c) (cmp : Comparer α η) : c.Sound cmp := by
  obtain ⟨rfl, -⟩ := new_eq_ok new
  exact ⟨⟨nofun, nofun, .nil, nofun⟩, rfl, fun _ _ => Nat.zero_le _⟩

/-- A cleared cache is sound, whatever it was before. -/
lemma clear (c : Cache α η ρ) (cmp : Comparer α η) : c.clear.Sound cmp :=
  ⟨⟨nofun, nofun, .nil, nofun⟩, rfl, fun _ _ => Nat.zero_le _⟩

/-- The order of the buckets plays no part in soundness. -/
lemma reorder (h : c.Sound cmp) {buckets : List (Bucket α η ρ)} (perm : buckets.Perm c.buckets) :
    Sound cmp { c with buckets } :=
  ⟨h.arranged.perm perm, h.counted.trans (total_perm perm).symm, h.fits⟩

end Sound

/-! ## Dropping buckets -/

/-- As long as buckets are dropped, each of them has no more entries than are counted. -/
def DropsCounted (bound : Nat) : List (Bucket α η ρ) → Nat → Prop
  | [], _ => True
  | b :: rest, size => bound < size → b.entries.length ≤ size ∧ DropsCounted bound rest (size - b.entries.length)

/-- When all entries are counted, none is taken off that was not. -/
lemma dropsCounted_total (bound : Nat) (buckets : List (Bucket α η ρ)) : DropsCounted bound buckets (total buckets) := by
  induction buckets with
  | nil => trivial
  | cons b rest ih =>
    intro _
    rw [total_cons, Nat.add_sub_cancel_left]
    exact ⟨Nat.le_add_right _ _, ih⟩

/-- Buckets are dropped from the front until the entries fit, and the others stay counted. -/
lemma dropUntilFits_total (bound : Nat) (buckets : List (Bucket α η ρ)) :
    ∃ dropped kept, buckets = dropped ++ kept ∧ dropUntilFits bound buckets (total buckets) = (kept, total kept) ∧
      total kept ≤ bound ∧ (total buckets ≤ bound → dropped = []) := by
  induction buckets with
  | nil => exact ⟨[], [], rfl, rfl, Nat.zero_le _, fun _ => rfl⟩
  | cons b rest ih =>
    unfold dropUntilFits
    split
    · rename_i excess
      obtain ⟨dropped, kept, rfl, eq, fits, -⟩ := ih
      rw [total_cons, Nat.add_sub_cancel_left]
      refine ⟨b :: dropped, kept, rfl, eq, fits, fun within => ?_⟩
      rw [total_cons] at excess
      exact absurd within (Nat.not_le.2 excess)
    · rename_i within
      exact ⟨[], b :: rest, rfl, rfl, Nat.le_of_not_lt within, fun _ => rfl⟩

/-- Eviction takes buckets from the back until the bound is kept, and none when it is. -/
lemma evict_spec {c : Cache α η ρ} (counted : c.size = total c.buckets) :
    ∃ kept dropped, c.buckets = kept ++ dropped ∧ c.evict = { c with buckets := kept, size := total kept } ∧
      (∀ bound, c.bound = some bound → total kept ≤ bound) ∧
      ((∀ bound, c.bound = some bound → c.size ≤ bound) → dropped = []) := by
  unfold evict
  cases limit : c.bound with
  | none =>
    refine ⟨c.buckets, [], (List.append_nil _).symm, ?_, fun _ none => (by cases none), fun _ => rfl⟩
    change c = _
    rw [← counted, ← limit]
  | some bound =>
    obtain ⟨dropped, kept, split, eq, fits, idle⟩ := dropUntilFits_total bound c.buckets.reverse
    rw [total_reverse, ← counted] at eq idle
    refine ⟨kept.reverse, dropped.reverse, ?_, ?_, fun _ same => ?_, fun within => ?_⟩
    · rw [← List.reverse_append, ← split, List.reverse_reverse]
    · simp only [eq, total_reverse, ← limit]
    · cases same
      rwa [total_reverse]
    · rw [idle (within bound rfl)]
      rfl

/-! ## Looking up -/

variable [DecidableEq η] {c : Cache α η ρ} {x : α} {result : ρ}

/-- Using the bucket of a hash moves it to the front. -/
lemma use_perm {b : Bucket α η ρ} {hash : η} (found : c.bucket? hash = some b) : (c.use b).buckets.Perm c.buckets := by
  have own : b.hash = hash := by simpa using List.find?_some found
  unfold use
  rw [own]
  exact List.cons_eraseP_perm found

/-- Looking a subject up puts the buckets into another order, and leaves all else alone. -/
lemma lookup_frame (cmp : Comparer α η) (x : α) (c : Cache α η ρ) :
    ∃ buckets, buckets.Perm c.buckets ∧ (c.lookup cmp x).1 = { c with buckets } := by
  unfold lookup
  cases found : c.bucket? (cmp.hashOf x) with
  | none => exact ⟨_, .refl _, rfl⟩
  | some b => exact ⟨_, use_perm found, rfl⟩

/-- A look only moves buckets. -/
lemma lookup_perm (cmp : Comparer α η) (x : α) (c : Cache α η ρ) : (c.lookup cmp x).1.buckets.Perm c.buckets := by
  obtain ⟨buckets, perm, eq⟩ := lookup_frame cmp x c
  rw [eq]
  exact perm

/-- The result that is found is the one that is stored for an equal subject. -/
theorem Arranged.lookup_eq_some_iff (lawful : cmp.Lawful) (h : Arranged cmp c.buckets) :
    (c.lookup cmp x).2 = some result ↔ ∃ y, (y, result) ∈ c.entries ∧ cmp.equals y x = true := by
  constructor
  · intro hit
    have stored : c.All fun y result => (y, result) ∈ c.entries := fun b mem entry here => mem_entries.2 ⟨b, mem, here⟩
    exact (stored.lookup cmp x).2 result hit
  · rintro ⟨y, stored, equal⟩
    obtain ⟨b, mem, here⟩ := mem_entries.1 stored
    have hash : b.hash = cmp.hashOf x := by rw [← h.placed b mem _ here, ← lawful.hash equal]
    have found : c.bucket? (cmp.hashOf x) = some b := by
      rw [← hash]
      exact List.find?_of_nodup_map h.hashes mem
    unfold lookup
    rw [found]
    cases first : b.entries.find? fun entry => cmp.equals entry.1 x with
    | none => exact absurd equal (List.find?_eq_none.1 first _ here)
    | some entry =>
      -- the entry that is found and the one that is there would be for equal subjects if they were two
      have passes : cmp.equals entry.1 x = true := by simpa using List.find?_some first
      have alike := lawful.trans passes (lawful.symm equal)
      have apart : Std.Symm fun a a' : α × ρ => cmp.equals a.1 a'.1 = false :=
        ⟨fun _ _ other => Bool.eq_false_iff.2 fun equal => Bool.eq_false_iff.1 other (lawful.symm equal)⟩
      have same : entry = (y, result) := by
        by_contra other
        exact absurd alike (Bool.eq_false_iff.1 ((h.distinct b mem).forall (List.mem_of_find?_eq_some first) here other))
      simp [first, same]

/-- Nothing is found when no entry is for an equal subject. -/
lemma Arranged.lookup_eq_none_iff (lawful : cmp.Lawful) (h : Arranged cmp c.buckets) :
    (c.lookup cmp x).2 = none ↔ ∀ entry ∈ c.entries, cmp.equals entry.1 x = false := by
  rw [Option.eq_none_iff_forall_ne_some]
  constructor
  · intro missing entry mem
    apply Bool.eq_false_iff.2
    intro equal
    exact missing entry.2 ((h.lookup_eq_some_iff lawful).2 ⟨entry.1, mem, equal⟩)
  · intro fresh result hit
    obtain ⟨y, mem, equal⟩ := (h.lookup_eq_some_iff lawful).1 hit
    exact Bool.eq_false_iff.1 (fresh _ mem) equal

/-! ## Storing -/

/-- The cache with one result more, before buckets are dropped. -/
def stored (cmp : Comparer α η) (x : α) (result : ρ) (c : Cache α η ρ) : Cache α η ρ :=
  { c.use ⟨cmp.hashOf x, ((c.bucket? (cmp.hashOf x)).map Bucket.entries).getD [] ++ [(x, result)]⟩ with
    size := c.size + 1 }

/-- A result is stored first, and then buckets are dropped. -/
lemma insert_eq_evict (cmp : Comparer α η) (x : α) (result : ρ) (c : Cache α η ρ) :
    c.insert cmp x result = (c.stored cmp x result).evict := rfl

/-- The bucket that a result is added to, if there is one, may be put to the front. -/
lemma bucket?_spec (c : Cache α η ρ) (hash : η) :
    (c.bucket? hash = none ∧ (∀ b ∈ c.buckets, b.hash ≠ hash) ∧ c.buckets.eraseP (fun b => b.hash = hash) = c.buckets) ∨
      ∃ b, c.bucket? hash = some b ∧ b.hash = hash ∧
        (b :: c.buckets.eraseP fun b => b.hash = hash).Perm c.buckets := by
  cases found : c.bucket? hash with
  | none =>
    have others : ∀ b ∈ c.buckets, b.hash ≠ hash := fun b mem => by simpa using List.find?_eq_none.1 found b mem
    exact .inl ⟨rfl, others, List.eraseP_of_forall_not fun b mem => by simpa using others b mem⟩
  | some b => exact .inr ⟨b, rfl, by simpa using List.find?_some found, List.cons_eraseP_perm found⟩

/-- A result that is stored is one entry more. -/
lemma stored_perm (cmp : Comparer α η) (x : α) (result : ρ) (c : Cache α η ρ) :
    (c.stored cmp x result).entries.Perm ((x, result) :: c.entries) := by
  unfold stored use entries
  rcases c.bucket?_spec (cmp.hashOf x) with ⟨none, -, same⟩ | ⟨b, found, -, perm⟩
  · simp only [none, same]
    exact .refl _
  · simp only [found, Option.map_some, Option.getD_some]
    have front : (b.entries ++ [(x, result)] ++
        (c.buckets.eraseP fun b => b.hash = cmp.hashOf x).flatMap Bucket.entries).Perm
          ((x, result) :: (b :: c.buckets.eraseP fun b => b.hash = cmp.hashOf x).flatMap Bucket.entries) := by
      rw [List.append_assoc]
      exact List.perm_middle
    exact front.trans ((perm.flatMap_right _).cons _)

/-- Storing makes one entry more. -/
lemma total_stored (cmp : Comparer α η) (x : α) (result : ρ) (c : Cache α η ρ) :
    total (c.stored cmp x result).buckets = total c.buckets + 1 := by
  have lengths := (stored_perm cmp x result c).length_eq
  unfold entries at lengths
  rwa [List.length_cons, List.length_flatMap, List.length_flatMap] at lengths

/-- A result that is stored for a subject without one keeps the buckets arranged. -/
lemma Arranged.stored (h : Arranged cmp c.buckets) (fresh : ∀ entry ∈ c.entries, cmp.equals entry.1 x = false)
    (result : ρ) : Arranged cmp (c.stored cmp x result).buckets := by
  unfold Cache.stored use
  rcases c.bucket?_spec (cmp.hashOf x) with ⟨none, others, same⟩ | ⟨b, found, own, perm⟩
  · simp only [none, same]
    exact h.cons (by simp) (by simp) others (List.pairwise_singleton _ _)
  · have old : ∀ entry ∈ b.entries, cmp.equals entry.1 x = false := fun entry mem =>
      fresh entry (mem_entries.2 ⟨b, List.mem_of_find?_eq_some found, mem⟩)
    simp only [found, Option.map_some, Option.getD_some]
    rw [← own] at perm ⊢
    exact (h.perm perm).add own.symm old result

namespace Sound

/-- A look keeps a cache sound. -/
lemma lookup (h : c.Sound cmp) (x : α) : (c.lookup cmp x).1.Sound cmp := by
  obtain ⟨buckets, perm, eq⟩ := lookup_frame cmp x c
  rw [eq]
  exact h.reorder perm

/-- A look that finds nothing and is counted keeps a cache sound. -/
lemma missed (h : c.Sound cmp) (x : α) : (c.missed cmp x).Sound cmp :=
  ⟨(h.lookup x).arranged, (h.lookup x).counted, (h.lookup x).fits⟩

/-- Storing a result for a subject without one keeps a cache sound. The entries are those of before and the new one,
without those that are dropped, and none is dropped unless the cache was full. -/
theorem insert_spec (h : c.Sound cmp) (fresh : ∀ entry ∈ c.entries, cmp.equals entry.1 x = false) (result : ρ) :
    (c.insert cmp x result).Sound cmp ∧
      ∃ dropped, ((c.insert cmp x result).entries ++ dropped).Perm ((x, result) :: c.entries) ∧
        (c.bound ≠ some c.size → dropped = []) := by
  have counted : (c.stored cmp x result).size = total (c.stored cmp x result).buckets := by
    rw [total_stored, ← h.counted]
    rfl
  obtain ⟨kept, dropped, split, eq, fits, idle⟩ := evict_spec counted
  rw [insert_eq_evict, eq]
  refine ⟨⟨(h.arranged.stored fresh result).sublist (split ▸ List.sublist_append_left kept dropped), rfl, fits⟩,
    dropped.flatMap Bucket.entries, ?_, fun room => ?_⟩
  · have all : (c.stored cmp x result).entries = kept.flatMap Bucket.entries ++ dropped.flatMap Bucket.entries := by
      unfold entries
      rw [split, List.flatMap_append]
    exact all ▸ stored_perm cmp x result c
  · rw [idle fun bound limit => ?_, List.flatMap_nil]
    have within := h.fits bound limit
    have other : c.size ≠ bound := fun same => room (same ▸ limit)
    exact Nat.lt_of_le_of_ne within other

/-- Whatever sound use of the cache a computation makes, a request keeps it sound. -/
theorem getOrCompute (lawful : cmp.Lawful) (h : c.Sound cmp) (x : α) (compute : Cache α η ρ → Cache α η ρ × Except ε ρ)
    (computes : ∀ cache : Cache α η ρ, cache.Sound cmp → (compute cache).1.Sound cmp) :
    (c.getOrCompute cmp x compute).1.Sound cmp := by
  have after := computes _ (h.missed x)
  rcases getOrCompute_cases cmp x compute c with ⟨result, -, eq⟩ | ⟨c', failure, -, ran, eq⟩ |
    ⟨c', result, stored, -, ran, -, eq⟩ | ⟨c', result, -, ran, missing, eq⟩
  · rw [eq]
    exact ⟨(h.lookup x).arranged, (h.lookup x).counted, (h.lookup x).fits⟩
  · rw [ran] at after
    rwa [eq]
  · rw [ran] at after
    rw [eq]
    exact after.lookup x
  · rw [ran] at after
    rw [eq]
    -- looking up once more has found nothing, so there still is no entry for an equal subject
    have fresh := (after.arranged.lookup_eq_none_iff lawful).1 missing
    refine ((after.lookup x).insert_spec (fun entry mem => fresh entry ?_) result).1
    exact (entries_perm (lookup_perm cmp x c')).subset mem

end Sound

end Cache

end FeatureLines
