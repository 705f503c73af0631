import FeatureLines.Proofs.Cache.Run
import FeatureLines.Proofs.Schema.Grouping

/-!
# Caches as recency lists

When a hash says all about a subject, every bucket has one entry, and a bounded cache is a list of entries in the order of
their use (`Recency`). The two are kept side by side through a run (`Recency.Follows.run`). The list in turn holds the
subjects that were used last (`Recency.Latest.run`).

Main statement: `Cache.run_eq_recency`.
-/

namespace FeatureLines

variable {α η ρ ε : Type}

/-! ## Lists by use -/

section

variable [DecidableEq η]

/-- Leaving elements out does not change which of the others come first. -/
lemma eraseDups_filter (p : η → Bool) (as : List η) : (as.filter p).eraseDups = as.eraseDups.filter p := by
  induction as using List.reverseRecOn with
  | nil => rfl
  | append_singleton as b ih =>
    rw [List.filter_append, eraseDups_concat, List.filter_append, ← ih]
    cases pass : p b with
    | false =>
      rw [List.filter_cons_of_neg (by simp [pass]), List.filter_nil, List.append_nil]
      split
      · rw [List.filter_nil, List.append_nil]
      · rw [List.filter_cons_of_neg (by simp [pass]), List.filter_nil, List.append_nil]
    | true =>
      rw [List.filter_cons_of_pos pass, List.filter_nil, eraseDups_concat]
      by_cases mem : b ∈ as
      · simp [mem, pass]
      · simp [mem, pass]

/-- Using a member once more puts it to the front. -/
lemma eraseDups_cons_eq (a : η) (as : List η) : (a :: as).eraseDups = a :: as.eraseDups.erase a := by
  rw [List.eraseDups_cons, eraseDups_filter, (nodup_eraseDups as).erase_eq_filter]
  rfl

/-- The first members when another one comes to the front: it is one of them already, or the last of them may have to go. -/
lemma take_cons_erase {m : Nat} (room : 0 < m) (a : η) (as : List η) :
    (a :: as.erase a).take m = if a ∈ as.take m then a :: (as.take m).erase a else (a :: as.take m).take m := by
  obtain ⟨m, rfl⟩ := Nat.exists_eq_add_one.2 room
  rw [List.take_succ_cons]
  by_cases mem : a ∈ as
  · obtain ⟨before, after, fresh, rfl, erased⟩ := List.exists_erase_eq mem
    rw [erased]
    split
    · rename_i early
      have short : before.length ≤ m := by
        by_contra long
        rw [List.take_append_of_le_length (by omega)] at early
        exact fresh (List.mem_of_mem_take early)
      obtain ⟨k, rfl⟩ := Nat.exists_eq_add_of_le short
      rw [Nat.add_assoc, List.take_length_add_append, List.take_length_add_append, List.take_succ_cons,
        List.erase_append_right _ fresh, List.erase_cons_head]
    · rename_i late
      have long : m + 1 ≤ before.length := by
        by_contra short
        refine late (List.mem_take_iff_getElem.2 ⟨before.length, by simp; omega, by simp⟩)
      rw [List.take_append_of_le_length (by omega), List.take_append_of_le_length long, List.take_succ_cons,
        List.take_take, Nat.min_eq_left (Nat.le_succ m)]
  · rw [List.erase_of_not_mem mem, if_neg fun early => mem (List.mem_of_mem_take early), List.take_succ_cons,
      List.take_take, Nat.min_eq_left (Nat.le_succ m)]

end

/-- Entries in the order of their use, the most recent first, with the hits and misses of the requests so far. -/
structure Recency (α ρ : Type) where
  entries : List (α × ρ)
  hits : Nat
  misses : Nat

namespace Recency

open Cache (Operation)

def empty : Recency α ρ := ⟨[], 0, 0⟩

/-- Without the last entry when there are too many. -/
def trim (m : Nat) (entries : List (α × ρ)) : List (α × ρ) := if m < entries.length then entries.dropLast else entries

variable (cmp : Comparer α η) (m : Nat)

/-- A request to a list of so many entries. A hit moves its entry to the front, and a new result is put there. -/
def request (x : α) (outcome : Except ε ρ) (l : Recency α ρ) : Recency α ρ × Except ε ρ :=
  match l.entries.find? fun entry => cmp.equals entry.1 x with
  | some entry =>
    ({ l with entries := entry :: l.entries.eraseP fun entry => cmp.equals entry.1 x, hits := l.hits + 1 }, .ok entry.2)
  | none =>
    match outcome with
    | .error failure => ({ l with misses := l.misses + 1 }, .error failure)
    | .ok result => ({ l with entries := trim m ((x, result) :: l.entries), misses := l.misses + 1 }, .ok result)

def clear (l : Recency α ρ) : Recency α ρ := { l with entries := [] }

def apply (l : Recency α ρ) : Operation α ε ρ → Recency α ρ
  | .request x outcome => (l.request cmp m x outcome).1
  | .clear => l.clear

/-- The list after a run. -/
def run (l : Recency α ρ) (operations : List (Operation α ε ρ)) : Recency α ρ := operations.foldl (apply cmp m) l

/-- What the requests of a run are given. -/
def replies : Recency α ρ → List (Operation α ε ρ) → List (Except ε ρ)
  | _, [] => []
  | l, .request x outcome :: rest => (l.request cmp m x outcome).2 :: replies (l.request cmp m x outcome).1 rest
  | l, .clear :: rest => replies l.clear rest

end Recency

namespace Cache

variable [DecidableEq η]

/-- What the requests of a run are given. -/
def replies (cmp : Comparer α η) : Cache α η ρ → List (Operation α ε ρ) → List (Except ε ρ)
  | _, [] => []
  | c, .request x outcome :: rest => (c.request cmp x outcome).2 :: replies cmp (c.request cmp x outcome).1 rest
  | c, .clear :: rest => replies cmp c.clear rest

/-- A request that is given a result uses its subject. A clearing forgets all uses. -/
def Operation.uses (cmp : Comparer α η) (c : Cache α η ρ) (subjects : List α) : Operation α ε ρ → List α
  | .request x outcome => if (c.request cmp x outcome).2.isOk then x :: subjects else subjects
  | .clear => []

/-- The subjects in the order of their use, the latest one first. -/
def used (cmp : Comparer α η) : Cache α η ρ → List α → List (Operation α ε ρ) → List α
  | _, subjects, [] => subjects
  | c, subjects, operation :: rest => used cmp (operation.apply cmp c) (operation.uses cmp c subjects) rest

/-- A bucket of one entry. -/
def single (cmp : Comparer α η) (entry : α × ρ) : Bucket α η ρ := ⟨cmp.hashOf entry.1, [entry]⟩

end Cache

namespace Recency

open Cache (Operation single)

variable {cmp : Comparer α η} {m : Nat} {c : Cache α η ρ} {l : Recency α ρ} {subjects : List α}

/-- The subjects of a list are those that were used last, by their hashes. -/
def Latest [DecidableEq η] (cmp : Comparer α η) (m : Nat) (l : Recency α ρ) (subjects : List α) : Prop :=
  (l.entries.map fun entry => cmp.hashOf entry.1) = (subjects.map cmp.hashOf).eraseDups.take m

/-- Every bucket is for one entry of a list, in the order of the list, and the counts are its. -/
structure Follows (cmp : Comparer α η) (m : Nat) (c : Cache α η ρ) (l : Recency α ρ) : Prop where
  buckets : c.buckets = l.entries.map (single cmp)
  size : c.size = l.entries.length
  bound : c.bound = some m
  fits : l.entries.length ≤ m
  hits : c.hits = l.hits
  misses : c.misses = l.misses

/-- Buckets of one entry each have these entries. -/
lemma entries_single (entries : List (α × ρ)) : (entries.map (single cmp)).flatMap Bucket.entries = entries := by
  induction entries with
  | nil => rfl
  | cons entry entries ih =>
    rw [List.map_cons, List.flatMap_cons, ih]
    rfl

lemma Follows.entries (h : Follows cmp m c l) : c.entries = l.entries := by
  unfold Cache.entries
  rw [h.buckets, entries_single]

lemma Follows.clear (h : Follows cmp m c l) : Follows cmp m c.clear l.clear :=
  ⟨rfl, rfl, h.bound, Nat.zero_le _, h.hits, h.misses⟩

/-- A list that is one entry too long is trimmed to the bound. -/
lemma length_trim_le {entries : List (α × ρ)} (within : entries.length ≤ m + 1) : (trim m entries).length ≤ m := by
  unfold trim
  split
  · rw [List.length_dropLast]
    omega
  · omega

/-- What is left of the list are the entries that were used most recently. -/
lemma trim_eq_take {entries : List (α × ρ)} (within : entries.length ≤ m + 1) : trim m entries = entries.take m := by
  unfold trim
  split
  · rw [List.dropLast_eq_take]
    congr 1
    omega
  · rw [List.take_of_length_le (by omega)]

/-- No bucket is dropped from a cache that fits. -/
lemma dropUntilFits_of_le {buckets : List (Bucket α η ρ)} {size : Nat} (room : size ≤ m) :
    Cache.dropUntilFits m buckets size = (buckets, size) := by
  cases buckets with
  | nil => rfl
  | cons b rest => rw [Cache.dropUntilFits, if_neg (Nat.not_lt.2 room)]

/-- When there is an entry too many, the last bucket goes with its one entry. -/
lemma evict_single {entries : List (α × ρ)} (within : entries.length ≤ m + 1)
    (buckets : c.buckets = entries.map (single cmp)) (size : c.size = entries.length) (bound : c.bound = some m) :
    c.evict = { c with buckets := (trim m entries).map (single cmp), size := (trim m entries).length } := by
  unfold Cache.evict trim
  simp only [bound, buckets, size, ← List.map_reverse]
  split
  · rename_i excess
    obtain rfl | ⟨front, last, rfl⟩ := entries.eq_nil_or_concat'
    · cases excess
    · have full : front.length = m := by
        rw [List.length_append, List.length_singleton] at excess within
        omega
      rw [List.reverse_concat, List.map_cons, Cache.dropUntilFits, if_pos excess, dropUntilFits_of_le]
      · simp [single]
      · simp [single, full]
  · rename_i room
    rw [dropUntilFits_of_le (Nat.le_of_not_lt room), List.map_reverse, List.reverse_reverse]

section

variable [DecidableEq η] (agree : ∀ x y, cmp.equals x y = true ↔ cmp.hashOf x = cmp.hashOf y)

include agree

/-- The entry for an equal subject is the one in the bucket of its hash. -/
lemma equals_eq (x : α) (entry : α × ρ) :
    cmp.equals entry.1 x = decide ((single cmp entry).hash = cmp.hashOf x) := by
  rw [Bool.eq_iff_iff, agree, decide_eq_true_iff]
  rfl

/-- A bucket is found exactly when the list has an equal subject. -/
lemma bucket?_single (h : Follows cmp m c l) (x : α) :
    c.bucket? (cmp.hashOf x) = (l.entries.find? fun entry => cmp.equals entry.1 x).map (single cmp) := by
  unfold Cache.bucket?
  rw [h.buckets, List.find?_map]
  simp only [equals_eq agree, Function.comp_def]

/-- A subject that is found is found in its bucket, which goes to the front with its entry. -/
lemma lookup_of_find_some (h : Follows cmp m c l) {x : α} {entry : α × ρ}
    (found : l.entries.find? (fun entry => cmp.equals entry.1 x) = some entry) :
    c.lookup cmp x =
      ({ c with buckets := (entry :: l.entries.eraseP fun entry => cmp.equals entry.1 x).map (single cmp) },
        some entry.2) := by
  have equal : cmp.equals entry.1 x = true := by simpa using List.find?_some found
  have hash : (single cmp entry).hash = cmp.hashOf x := (agree _ _).1 equal
  have result : (single cmp entry).entries.find? (fun entry => cmp.equals entry.1 x) = some entry :=
    List.find?_cons_of_pos equal
  unfold Cache.lookup
  rw [bucket?_single agree h, found]
  simp only [Option.map_some, result, Cache.use, hash, h.buckets, List.eraseP_map, List.map_cons]
  simp only [equals_eq agree, Function.comp_def]

/-- Looking for a subject that is not in the list does nothing. -/
lemma lookup_of_find_none (h : Follows cmp m c l) {x : α}
    (missing : l.entries.find? (fun entry => cmp.equals entry.1 x) = none) : c.lookup cmp x = (c, none) := by
  unfold Cache.lookup
  rw [bucket?_single agree h, missing]
  rfl

/-- A new result is put to the front, and the last entry goes if there are too many. -/
lemma insert_of_find_none (h : Follows cmp m c l) {x : α}
    (missing : l.entries.find? (fun entry => cmp.equals entry.1 x) = none) (result : ρ) :
    Follows cmp m (c.insert cmp x result) { l with entries := trim m ((x, result) :: l.entries) } := by
  have none : c.bucket? (cmp.hashOf x) = none := by
    rw [bucket?_single agree h, missing]
    rfl
  have others : c.buckets.eraseP (fun b => b.hash = cmp.hashOf x) = c.buckets := by
    rcases c.bucket?_spec (cmp.hashOf x) with ⟨-, -, same⟩ | ⟨b, found, -⟩
    · exact same
    · rw [none] at found
      cases found
  have buckets : (c.stored cmp x result).buckets = ((x, result) :: l.entries).map (single cmp) := by
    unfold Cache.stored Cache.use
    rw [none, others, h.buckets]
    rfl
  have within : ((x, result) :: l.entries).length ≤ m + 1 := Nat.succ_le_succ h.fits
  have size : (c.stored cmp x result).size = ((x, result) :: l.entries).length := congrArg (· + 1) h.size
  rw [Cache.insert_eq_evict, evict_single within buckets size h.bound]
  exact ⟨rfl, rfl, h.bound, length_trim_le within, h.hits, h.misses⟩

/-- A request to a cache is one to its list. -/
theorem Follows.request (h : Follows cmp m c l) (x : α) (outcome : Except ε ρ) :
    Follows cmp m (c.request cmp x outcome).1 (l.request cmp m x outcome).1 ∧
      (c.request cmp x outcome).2 = (l.request cmp m x outcome).2 := by
  unfold Cache.request Cache.getOrCompute Recency.request
  cases found : l.entries.find? fun entry => cmp.equals entry.1 x with
  | some entry =>
    have length := (List.cons_eraseP_perm found).length_eq
    rw [lookup_of_find_some agree h found]
    exact ⟨⟨rfl, h.size.trans length.symm, h.bound, length.trans_le h.fits, congrArg (· + 1) h.hits, h.misses⟩, rfl⟩
  | none =>
    have missed : Follows cmp m { c with misses := c.misses + 1 } { l with misses := l.misses + 1 } :=
      ⟨h.buckets, h.size, h.bound, h.fits, h.hits, congrArg (· + 1) h.misses⟩
    rw [lookup_of_find_none agree h found]
    cases outcome with
    | error failure => exact ⟨missed, rfl⟩
    | ok result =>
      -- the second look is at the same buckets
      simp only [lookup_of_find_none agree missed found]
      exact ⟨insert_of_find_none agree missed found result, trivial⟩

/-- A list that has the subjects used last has them after a request too. -/
theorem Latest.request (room : 0 < m) (latest : Latest cmp m l subjects) (x : α) (outcome : Except ε ρ) :
    Latest cmp m (l.request cmp m x outcome).1
      (if (l.request cmp m x outcome).2.isOk then x :: subjects else subjects) := by
  unfold Latest at latest ⊢
  have next : ((x :: subjects).map cmp.hashOf).eraseDups.take m =
      if cmp.hashOf x ∈ l.entries.map fun entry => cmp.hashOf entry.1 then
        cmp.hashOf x :: (l.entries.map fun entry => cmp.hashOf entry.1).erase (cmp.hashOf x)
      else (cmp.hashOf x :: l.entries.map fun entry => cmp.hashOf entry.1).take m := by
    rw [List.map_cons, eraseDups_cons_eq, take_cons_erase room, ← latest]
  unfold Recency.request
  cases found : l.entries.find? fun entry => cmp.equals entry.1 x with
  | some entry =>
    have equal : cmp.equals entry.1 x = true := by simpa using List.find?_some found
    have hash := (agree _ _).1 equal
    have mem : cmp.hashOf x ∈ l.entries.map fun entry => cmp.hashOf entry.1 :=
      List.mem_map.2 ⟨entry, List.mem_of_find?_eq_some found, hash⟩
    simp only [Except.isOk, Except.toBool, if_true]
    rw [next, if_pos mem, List.map_cons, hash, List.erase_eq_eraseP, List.eraseP_map]
    have tests : (fun entry : α × ρ => cmp.equals entry.1 x) =
        (fun hash => cmp.hashOf x == hash) ∘ fun entry => cmp.hashOf entry.1 := by
      funext entry
      rw [equals_eq agree]
      exact decide_eq_decide.2 eq_comm
    rw [tests]
  | none =>
    cases outcome with
    | error failure => exact latest
    | ok result =>
      have fresh : cmp.hashOf x ∉ l.entries.map fun entry => cmp.hashOf entry.1 := by
        intro mem
        obtain ⟨entry, stored, hash⟩ := List.mem_map.1 mem
        exact List.find?_eq_none.1 found entry stored ((agree _ _).2 hash)
      have within : l.entries.length ≤ m := by
        have length := congrArg List.length latest
        rw [List.length_map, List.length_take] at length
        exact length.trans_le (Nat.min_le_left _ _)
      simp only [Except.isOk, Except.toBool, if_true]
      rw [next, if_neg fresh, trim_eq_take (Nat.succ_le_succ within), List.map_take, List.map_cons]

/-- A run of a cache is one of its list, with the same replies, and the list has the subjects that were used last. -/
theorem Follows.run (room : 0 < m) (h : Follows cmp m c l) (latest : Latest cmp m l subjects)
    (operations : List (Operation α ε ρ)) :
    Follows cmp m (c.run cmp operations) (l.run cmp m operations) ∧
      c.replies cmp operations = l.replies cmp m operations ∧
      Latest cmp m (l.run cmp m operations) (c.used cmp subjects operations) := by
  induction operations generalizing c l subjects with
  | nil => exact ⟨h, rfl, latest⟩
  | cons operation rest ih =>
    cases operation with
    | clear => exact ih h.clear List.take_nil.symm
    | request x outcome =>
      obtain ⟨after, reply⟩ := h.request agree x outcome
      have used := latest.request agree room x outcome
      rw [← reply] at used
      obtain ⟨follows, replies, last⟩ := ih after used
      refine ⟨follows, ?_, last⟩
      unfold Cache.replies Recency.replies
      rw [reply, replies]

end

end Recency

namespace Cache

variable [DecidableEq η] {cmp : Comparer α η} {m : Nat} {c : Cache α η ρ}

/-- When subjects are equal exactly if their hashes are, a cache with a bound is the list of the entries used last: every
request of a run is given what the list gives, with the same hits and misses, and the entries are the same in the same
order. They are for the subjects that were used last, as many as there may be, and no two for equal ones. -/
theorem run_eq_recency (agree : ∀ x y, cmp.equals x y = true ↔ cmp.hashOf x = cmp.hashOf y)
    (new : Cache.new (some m) = .ok c) (operations : List (Operation α ε ρ)) :
    let list := Recency.empty.run cmp m operations
    let after := c.run cmp operations
    c.replies cmp operations = Recency.empty.replies cmp m operations ∧
      after.hits = list.hits ∧ after.misses = list.misses ∧ after.entries = list.entries ∧
      (list.entries.map fun entry => cmp.hashOf entry.1) =
        ((c.used cmp [] operations).map cmp.hashOf).eraseDups.take m := by
  obtain ⟨rfl, bound⟩ := new_eq_ok new
  have room : 0 < m := Nat.pos_of_ne_zero fun zero => bound (congrArg some zero)
  have start : Recency.Follows cmp m (⟨[], 0, some m, 0, 0⟩ : Cache α η ρ) .empty :=
    ⟨rfl, rfl, rfl, Nat.zero_le _, rfl, rfl⟩
  have unused : Recency.Latest cmp m (.empty : Recency α ρ) [] := List.take_nil.symm
  obtain ⟨follows, replies, latest⟩ := start.run agree room unused operations
  exact ⟨replies, follows.hits, follows.misses, follows.entries, latest⟩

/-- The second number goes for the third, since the first one was used again in between. -/
theorem run_eq_recency_identity :
    let identity : Comparer Nat Nat := ⟨fun a b => a == b, id⟩
    let new : Cache Nat Nat String := ⟨[], 0, some 2, 0, 0⟩
    let operations : List (Operation Nat String String) :=
      [.request 1 (.ok "one"), .request 2 (.ok "two"), .request 1 (.error "lost"), .request 3 (.ok "three"),
        .request 2 (.error "lost")]
    let list := Recency.empty.run identity 2 operations
    (∀ x y, identity.equals x y = true ↔ identity.hashOf x = identity.hashOf y) ∧ Cache.new (some 2) = .ok new ∧
      list.entries = [(3, "three"), (1, "one")] ∧ (new.run identity operations).entries = list.entries ∧
      (new.run identity operations).hits = list.hits ∧ (new.run identity operations).misses = list.misses ∧
      new.replies identity operations = Recency.empty.replies identity 2 operations := by
  intro identity new operations list
  have agree : ∀ x y, identity.equals x y = true ↔ identity.hashOf x = identity.hashOf y := fun x y => beq_iff_eq
  obtain ⟨replies, hits, misses, entries, -⟩ := run_eq_recency agree (rfl : Cache.new (some 2) = .ok new) operations
  exact ⟨agree, rfl, by decide +kernel, entries, hits, misses, replies⟩

end Cache

end FeatureLines
