import FeatureLines.Error

/-!
# Result caches

A cache remembers results of a computation by its subject. A comparer says which subjects are equal and hashes them; the
subjects of one hash share a bucket, and the buckets stand in the order of their use, the most recent first. A cache with
a bound drops least recently used buckets as a whole until it fits.

Looking for a subject uses the bucket of its hash, found or not. The computation runs on the cache itself and may use it
in turn; a result that was stored for an equal subject meanwhile wins.
-/

namespace FeatureLines

/-- Which subjects are equal, and their hashes. -/
structure Comparer (α η : Type) where
  equals : α → α → Bool
  hashOf : α → η

/-- The subjects of one hash with their results, in the order in which they were stored. -/
structure Bucket (α η ρ : Type) where
  hash : η
  entries : List (α × ρ)

/-- Results by subject. -/
structure Cache (α η ρ : Type) where
  /-- The most recently used bucket first. -/
  buckets : List (Bucket α η ρ)
  /-- The number of entries in all buckets. -/
  size : Nat
  /-- How many entries there may be. -/
  bound : Option Nat
  hits : Nat
  misses : Nat

namespace Cache

variable {α η ρ ε : Type} [DecidableEq η]

/-- An empty cache. A bound must leave room for an entry. -/
def new (bound : Option Nat) : Except ConfigError (Cache α η ρ) :=
  if bound = some 0 then .error (.invalidCacheSize 0) else .ok ⟨[], 0, bound, 0, 0⟩

def bucket? (c : Cache α η ρ) (hash : η) : Option (Bucket α η ρ) := c.buckets.find? (·.hash = hash)

/-- Puts a bucket to the front, in place of the one of its hash. -/
def use (c : Cache α η ρ) (b : Bucket α η ρ) : Cache α η ρ :=
  { c with buckets := b :: c.buckets.eraseP (·.hash = b.hash) }

/-- Looks for the result of an equal subject. -/
def lookup (cmp : Comparer α η) (x : α) (c : Cache α η ρ) : Cache α η ρ × Option ρ :=
  match c.bucket? (cmp.hashOf x) with
  | none => (c, none)
  | some b => (c.use b, (b.entries.find? fun entry => cmp.equals entry.1 x).map (·.2))

/-- Drops buckets from the front of a list that starts with the least recently used one, until the entries fit. -/
def dropUntilFits (bound : Nat) : List (Bucket α η ρ) → Nat → List (Bucket α η ρ) × Nat
  | [], size => ([], size)
  | b :: rest, size =>
    if bound < size then dropUntilFits bound rest (size - b.entries.length) else (b :: rest, size)

/-- Drops the least recently used buckets until the bound is kept. -/
def evict (c : Cache α η ρ) : Cache α η ρ :=
  match c.bound with
  | none => c
  | some bound =>
    let (kept, size) := dropUntilFits bound c.buckets.reverse c.size
    { c with buckets := kept.reverse, size }

/-- Stores a result for a subject that has none. -/
def insert (cmp : Comparer α η) (x : α) (result : ρ) (c : Cache α η ρ) : Cache α η ρ :=
  let entries := ((c.bucket? (cmp.hashOf x)).map Bucket.entries).getD []
  { c.use ⟨cmp.hashOf x, entries ++ [(x, result)]⟩ with size := c.size + 1 }.evict

/-- The result for a subject: the stored one, else the one that is computed, which is then stored. A computation that
fails stores nothing. -/
def getOrCompute (cmp : Comparer α η) (x : α) (compute : Cache α η ρ → Cache α η ρ × Except ε ρ) (c : Cache α η ρ) :
    Cache α η ρ × Except ε ρ :=
  match c.lookup cmp x with
  | (c, some result) => ({ c with hits := c.hits + 1 }, .ok result)
  | (c, none) =>
    match compute { c with misses := c.misses + 1 } with
    | (c, .error failure) => (c, .error failure)
    | (c, .ok result) =>
      match c.lookup cmp x with
      | (c, some stored) => (c, .ok stored)
      | (c, none) => (c.insert cmp x result, .ok result)

/-- The first half of a request: looks for a result. Other requests may go on before the second. -/
def look (cmp : Comparer α η) (x : α) (c : Cache α η ρ) : Cache α η ρ × Option ρ :=
  match c.lookup cmp x with
  | (c, some result) => ({ c with hits := c.hits + 1 }, some result)
  | (c, none) => ({ c with misses := c.misses + 1 }, none)

/-- The second half of a request: stores what was computed, unless a result was stored meanwhile. -/
def settle (cmp : Comparer α η) (x : α) (result : ρ) (c : Cache α η ρ) : Cache α η ρ × ρ :=
  match c.lookup cmp x with
  | (c, some stored) => (c, stored)
  | (c, none) => (c.insert cmp x result, result)

/-- Drops every entry; the counts of hits and misses go on. -/
def clear (c : Cache α η ρ) : Cache α η ρ := { c with buckets := [], size := 0 }

def results (c : Cache α η ρ) : List ρ := c.buckets.flatMap fun b => b.entries.map (·.2)

def describe (c : Cache α η ρ) : String :=
  Text.record "ExampleCache"
    [("max_entries", Text.optional (c.bound.map toString)), ("entries", toString c.size), ("hits", toString c.hits),
      ("misses", toString c.misses)] false

end Cache

end FeatureLines
