import FeatureLines.Proofs.Serializer.Client
import FeatureLines.Serializer.Processing

/-!
# Batches do not depend on the order

In a batch the order decides which items are found in the cache and which drive others out of it. What a cache keeps was
made for its subject in any case (`Serializer.Keeps`), so that every step gives an item what it has alone
(`Progress.Sound`), and so does a whole schedule (`Processing.Sound.run`). A batch processed in order is the one with the
schedule that takes each item to its end (`Processing.serializeBatch_gives`).
-/

namespace FeatureLines

/-! ## Two halves of a request -/

namespace Cache

variable {α η ρ ε : Type} [DecidableEq η] {cmp : Comparer α η} {P : α → ρ → Prop} {c : Cache α η ρ} {x : α}

/-- A request whose computation leaves the cache alone looks, and settles what was not found. -/
lemma getOrCompute_eq_look (cmp : Comparer α η) (x : α) (computed : Except ε ρ) (c : Cache α η ρ) :
    c.getOrCompute cmp x (fun cache => (cache, computed)) =
      match c.look cmp x, computed with
      | (c, some result), _ => (c, .ok result)
      | (c, none), .error failure => (c, .error failure)
      | (c, none), .ok result => ((c.settle cmp x result).1, .ok (c.settle cmp x result).2) := by
  unfold getOrCompute look
  rcases c.lookup cmp x with ⟨looked, found⟩
  cases found with
  | some result => rfl
  | none =>
    cases computed with
    | error failure => rfl
    | ok result =>
      simp only
      unfold settle
      rcases ({ looked with misses := looked.misses + 1 } : Cache α η ρ).lookup cmp x with ⟨again, stored⟩
      cases stored <;> rfl

namespace All

/-- What is found was stored for an equal subject. -/
lemma look (h : c.All P) (cmp : Comparer α η) (x : α) :
    (c.look cmp x).1.All P ∧ ∀ result, (c.look cmp x).2 = some result → ∃ y, P y result ∧ cmp.equals y x = true := by
  obtain ⟨kept, hit⟩ := h.lookup cmp x
  unfold Cache.look
  generalize c.lookup cmp x = looked at kept hit ⊢
  obtain ⟨looked, found⟩ := looked
  cases found with
  | some result => exact ⟨kept, hit⟩
  | none => exact ⟨kept, hit⟩

/-- What is settled is what was computed, or was stored for an equal subject. -/
lemma settle (h : c.All P) (cmp : Comparer α η) {result : ρ} (new : P x result) :
    (c.settle cmp x result).1.All P ∧
      ∃ y, P y (c.settle cmp x result).2 ∧ (y = x ∨ cmp.equals y x = true) := by
  obtain ⟨kept, hit⟩ := h.lookup cmp x
  unfold Cache.settle
  generalize c.lookup cmp x = looked at kept hit ⊢
  obtain ⟨looked, found⟩ := looked
  cases found with
  | some stored =>
    obtain ⟨y, holds, equal⟩ := hit stored rfl
    exact ⟨kept, y, holds, .inr equal⟩
  | none => exact ⟨kept.insert cmp new, x, new, .inl rfl⟩

end All

end Cache

variable {α η : Type} [DecidableEq η] {s : Serializer α η} {format : FloatFormat}

/-! ## What a serializer keeps -/

/-- A memory that was filled under a format, for subjects that are equal only if their results are. -/
def Serializer.Keeps (s : Serializer α η) (format : FloatFormat) (memory : Option (Memory α η)) : Prop :=
  ∀ m, memory = some m → s.Stores (· = format) m.cache ∧
    ∀ x y, m.comparer.equals x y = true → s.outputs format x .none = s.outputs format y .none

/-- What is known of an item is what is computed for it past the cache. -/
def Progress.Sound (s : Serializer α η) (format : FloatFormat) (x : α) : Progress → Prop
  | .waiting => True
  | .computed result => s.outputs format x .none = .ok result.output
  | .done result => s.outputs format x .none = result.map Result.output

/-- The same serializer, with whatever it keeps by now. -/
def Serializer.Later (s : Serializer α η) (format : FloatFormat) (later : Serializer α η) : Prop :=
  ∃ memory made, later = s.remembering memory made ∧ s.Keeps format memory

/-- An item that is waiting looks into the cache first. -/
lemma Serializer.advance_looking (s : Serializer α η) (m : Memory α η) (made : Nat) (format : FloatFormat) (x : α) :
    (s.remembering (some m) made).advance format x .waiting =
      (s.remembering (some { m with cache := (m.cache.look m.comparer x).1 }) (made + 1),
        .ofLook (m.cache.look m.comparer x).2
          ((s.remembering (some m) made).compute format x .none).result) := rfl

/-- A step gives an item what is computed for it past the cache. -/
lemma Serializer.advance_sound {later : Serializer α η} (kept : s.Later format later) {x : α} {progress : Progress}
    (sound : progress.Sound s format x) :
    s.Later format (later.advance format x progress).1 ∧ (later.advance format x progress).2.Sound s format x := by
  obtain ⟨memory, made, rfl, keeps⟩ := kept
  cases progress with
  | waiting =>
    have outputs := s.compute_outputs memory made format x .none
    cases memory with
    | none => exact ⟨⟨none, made + 1, rfl, keeps⟩, outputs.symm⟩
    | some m =>
      obtain ⟨stores, same⟩ := keeps m rfl
      obtain ⟨kept, hit⟩ := stores.look m.comparer x
      rw [advance_looking]
      generalize ((s.remembering (some m) made).compute format x .none).result = computed at outputs ⊢
      refine ⟨⟨_, _, rfl, ?_⟩, ?_⟩
      · rintro _ ⟨⟩
        exact ⟨kept, same⟩
      · cases found : (m.cache.look m.comparer x).2 with
        | some stored =>
          -- stored for an equal subject, under the same format
          obtain ⟨y, ⟨f, rfl, eq⟩, equal⟩ := hit stored found
          exact (same y x equal).symm.trans eq
        | none => cases computed <;> exact outputs.symm
  | computed result =>
    cases memory with
    | none => exact ⟨⟨none, made, rfl, keeps⟩, sound⟩
    | some m =>
      obtain ⟨stores, same⟩ := keeps m rfl
      -- an equal subject may have been stored since the look
      obtain ⟨kept, y, ⟨f, rfl, eq⟩, equal⟩ := stores.settle m.comparer ⟨format, rfl, sound⟩
      refine ⟨⟨_, _, rfl, ?_⟩, ?_⟩
      · rintro _ ⟨⟩
        exact ⟨kept, same⟩
      · rcases equal with rfl | equal
        · exact eq
        · exact (same y x equal).symm.trans eq
  | done result => exact ⟨⟨memory, made, rfl, keeps⟩, sound⟩

namespace Processing

variable {b : Processing α η} {xs : List α}

/-- Every item of a batch has come to what it has alone. -/
structure Sound (s : Serializer α η) (format : FloatFormat) (xs : List α) (b : Processing α η) : Prop where
  serializer : s.Later format b.serializer
  items : List.Forall₂ (fun x item => item.1 = x ∧ item.2.Sound s format x) xs b.items

namespace Sound

omit [DecidableEq η] in
/-- A batch that has not begun is sound. -/
lemma start (keeps : s.Keeps format s.memory) (xs : List α) : (start s xs).Sound s format xs := by
  refine ⟨⟨s.memory, s.made, rfl, keeps⟩, ?_⟩
  unfold Processing.start
  rw [List.forall₂_map_right_iff]
  exact List.forall₂_same.2 fun x _ => ⟨rfl, trivial⟩

/-- A batch stays sound, whichever item goes on. -/
lemma step (sound : b.Sound s format xs) (i : Nat) : (b.step format i).Sound s format xs := by
  unfold Processing.step
  split
  · rename_i x progress at_
    obtain ⟨_, -, rfl, known⟩ := sound.items.exists_of_mem_right (List.mem_of_getElem? at_)
    obtain ⟨later, after⟩ := Serializer.advance_sound sound.serializer known
    refine ⟨later, sound.items.set at_ ?_⟩
    rintro _ ⟨rfl, -⟩
    exact ⟨rfl, after⟩
  · exact sound

/-- In whichever order the items are taken. -/
theorem run (sound : b.Sound s format xs) (schedule : List Nat) : (b.run format schedule).Sound s format xs := by
  induction schedule generalizing b with
  | nil => exact sound
  | cons i schedule ih => exact ih (sound.step i)

omit [DecidableEq η] in
/-- The results of a batch are what the items have alone. -/
lemma of_gives_ok (sound : b.Sound s format xs) {results : List Result} (gives : b.Gives (.ok results)) :
    List.Forall₂ (fun x result => s.outputs format x .none = .ok result.output) xs results := by
  have items : List.Forall₂ (fun item result => item.2 = Progress.done (.ok result)) b.items results := by
    have all : List.Forall₂ Eq (b.items.map Prod.snd) (results.map fun result => .done (.ok result)) := by
      rw [show b.items.map Prod.snd = _ from gives]
      exact List.forall₂_same.2 fun _ _ => rfl
    rwa [List.forall₂_map_left_iff, List.forall₂_map_right_iff] at all
  refine sound.items.comp items fun x item _ result known done => ?_
  have alone := known.2
  rwa [done] at alone

omit [DecidableEq η] in
/-- If a batch fails, then one of its items does so alone. -/
lemma of_gives_error (sound : b.Sound s format xs) {failure : Error} (gives : b.Gives (.error failure)) :
    ∃ x ∈ xs, s.outputs format x .none = .error failure := by
  obtain ⟨item, mem, done⟩ := gives
  obtain ⟨x, own, -, known⟩ := sound.items.exists_of_mem_right mem
  rw [done] at known
  exact ⟨x, own, known⟩

end Sound

end Processing

/-! ## Batches that are over -/

/-- What a subject has without a cache. -/
def Serializer.alone (s : Serializer α η) (format : FloatFormat) (x : α) : Except Error Output :=
  ((s.remembering none s.made).serialize format x).result.map Result.output

/-- What an item gives alone does not depend on the cache. -/
lemma Serializer.alone_eq_outputs (s : Serializer α η) (format : FloatFormat) (x : α) :
    s.alone format x = s.outputs format x .none := s.compute_outputs none s.made format x .none

/-- How many steps an item may still take. -/
def Progress.left : Progress → Nat
  | .waiting => 2
  | .computed _ => 1
  | .done _ => 0

/-- After a look there is at most one step left. -/
lemma Progress.left_ofLook (found : Option Result) (computed : Except Error Result) : (ofLook found computed).left ≤ 1 := by
  cases found with
  | some stored => exact Nat.zero_le _
  | none =>
    cases computed with
    | error failure => exact Nat.zero_le _
    | ok result => exact le_rfl

/-- Each step of an item is one less to go. -/
lemma Serializer.left_advance (s : Serializer α η) (format : FloatFormat) (x : α) (progress : Progress) :
    (s.advance format x progress).2.left ≤ progress.left - 1 := by
  cases progress with
  | waiting =>
    unfold advance
    cases s.memory with
    | none => exact Nat.zero_le _
    | some memory => exact Progress.left_ofLook _ _
  | computed result =>
    unfold advance
    cases s.memory with
    | none => exact Nat.zero_le _
    | some memory => exact Nat.zero_le _
  | done result => exact Nat.zero_le _

namespace Processing

variable {b : Processing α η} {xs : List α}

/-- A step takes an item on that is not done, and leaves the others. -/
lemma left_step (format : FloatFormat) {i j : Nat} {item : α × Progress} (found : b.items[j]? = some item) :
    ∃ item', (b.step format i).items[j]? = some item' ∧ item'.2.left ≤ item.2.left - if i = j then 1 else 0 := by
  unfold step
  split
  · rename_i x progress at_
    by_cases same : i = j
    · subst same
      cases at_.symm.trans found
      rw [if_pos rfl]
      exact ⟨_, List.getElem?_set_self (List.getElem?_eq_some_iff.1 at_).1, b.serializer.left_advance format x progress⟩
    · rw [if_neg same]
      exact ⟨item, (List.getElem?_set_ne same).trans found, le_rfl⟩
  · rename_i none
    refine ⟨item, found, ?_⟩
    rw [if_neg]
    · exact le_rfl
    · rintro rfl
      cases none.symm.trans found

/-- The steps of an item are left less by each time it is taken. -/
lemma left_run (format : FloatFormat) {j : Nat} {item : α × Progress} (found : b.items[j]? = some item)
    (schedule : List Nat) :
    ∃ item', (b.run format schedule).items[j]? = some item' ∧ item'.2.left ≤ item.2.left - schedule.count j := by
  induction schedule generalizing b item with
  | nil => exact ⟨item, found, le_rfl⟩
  | cons i schedule ih =>
    obtain ⟨next, at_, fewer⟩ := left_step format (i := i) found
    obtain ⟨last, at', fewest⟩ := ih at_
    refine ⟨last, at', fewest.trans ?_⟩
    rw [List.count_cons, Nat.add_comm, ← Nat.sub_sub]
    refine Nat.sub_le_sub_right ?_ _
    simpa [beq_iff_eq] using fewer

/-- Items neither come nor go in a run. -/
lemma length_run (schedule : List Nat) : (b.run format schedule).items.length = b.items.length := by
  induction schedule generalizing b with
  | nil => rfl
  | cons i schedule ih =>
    refine ih.trans ?_
    unfold step
    split
    · exact List.length_set
    · rfl

omit [DecidableEq η] in
/-- When every item is done, a batch has come to something. -/
lemma gives_of_done (done : ∀ item ∈ b.items, item.2.left = 0) : ∃ outcome, b.Gives outcome := by
  obtain ⟨s, items⟩ := b
  induction items with
  | nil => exact ⟨.ok [], rfl⟩
  | cons item items ih =>
    obtain ⟨first, rest⟩ := List.forall_mem_cons.1 done
    obtain ⟨x, progress⟩ := item
    obtain ⟨outcome, others⟩ := ih rest
    cases progress with
    | waiting => cases first
    | computed result => cases first
    | done result =>
      cases result with
      | error failure => exact ⟨.error failure, _, List.mem_cons_self, rfl⟩
      | ok result =>
        cases outcome with
        | error failure =>
          obtain ⟨item, mem, failed⟩ := others
          exact ⟨.error failure, item, List.mem_cons_of_mem _ mem, failed⟩
        | ok results => exact ⟨.ok (result :: results), congrArg (Progress.done (.ok result) :: ·) others⟩

/-- A schedule that takes every item twice ends a batch. -/
lemma gives_of_twice {xs : List α} {schedule : List Nat} (twice : ∀ i < xs.length, 2 ≤ schedule.count i) :
    ∃ outcome, ((start s xs).run format schedule).Gives outcome := by
  refine gives_of_done fun item mem => ?_
  obtain ⟨i, found⟩ := List.mem_iff_getElem?.1 mem
  have inside : i < xs.length := by
    have inside := (List.getElem?_eq_some_iff.1 found).1
    rw [length_run] at inside
    simpa [start] using inside
  have waiting : (start s xs).items[i]? = some (xs[i], .waiting) := by simp [start, List.getElem?_eq_getElem inside]
  obtain ⟨last, at_, left⟩ := left_run format waiting schedule
  cases at_.symm.trans found
  have enough := twice i inside
  change item.2.left ≤ 2 - schedule.count i at left
  omega

/-! ## In order -/

/-- A step concerns one item and the serializer. -/
lemma step_middle (s : Serializer α η) (before after : List (α × Progress)) (x : α) (progress : Progress) :
    Processing.step format ⟨s, before ++ (x, progress) :: after⟩ before.length =
      ⟨(s.advance format x progress).1, before ++ (x, (s.advance format x progress).2) :: after⟩ := by
  have here : (before ++ (x, progress) :: after)[before.length]? = some (x, progress) := by simp
  unfold step
  simp only [here]
  rw [List.set_append_right _ _ le_rfl, Nat.sub_self]
  rfl

end Processing

/-- Two steps process an item as it is processed alone. -/
lemma Serializer.advance_twice (s : Serializer α η) (format : FloatFormat) (x : α) :
    (s.advance format x .waiting).1.advance format x (s.advance format x .waiting).2 =
      ((s.serialize format x).serializer, .done (s.serialize format x).result) := by
  change ((s.remembering s.memory s.made).advance format x .waiting).1.advance format x
    ((s.remembering s.memory s.made).advance format x .waiting).2 =
      (((s.remembering s.memory s.made).serialize format x).serializer,
        .done ((s.remembering s.memory s.made).serialize format x).result)
  generalize s.memory = memory, s.made = made
  cases memory with
  | none => rfl
  | some m =>
    rw [advance_looking, serialize_remembering]
    simp only [Cache.getOrCompute_eq_look]
    generalize ((s.remembering (some ⟨m.comparer, m.cache⟩) made).compute format x .none).result = computed
    generalize m.cache.look m.comparer x = looked
    obtain ⟨cache, found⟩ := looked
    cases found with
    | some stored => rfl
    | none => cases computed <;> rfl

namespace Processing

/-- An item that is taken twice in a row is processed. -/
lemma run_pair (s : Serializer α η) (format : FloatFormat) (before after : List (α × Progress)) (x : α) :
    Processing.run format ⟨s, before ++ (x, .waiting) :: after⟩ [before.length, before.length] =
      ⟨(s.serialize format x).serializer, before ++ (x, .done (s.serialize format x).result) :: after⟩ := by
  change Processing.step format (Processing.step format _ before.length) before.length = _
  rw [step_middle, step_middle, Serializer.advance_twice]

lemma run_append (b : Processing α η) (first second : List Nat) :
    b.run format (first ++ second) = (b.run format first).run format second := List.foldl_append ..

/-- A batch in order serializes the first item, then the others with what has become of the serializer. -/
lemma serializeBatch_cons (s : Serializer α η) (format : FloatFormat) (x : α) (xs : List α) :
    (s.serializeBatch format (x :: xs)).result = (s.serialize format x).result.bind fun result =>
      ((s.serialize format x).serializer.serializeBatch format xs).result.map (result :: ·) := by
  rw [Serializer.serializeBatch]
  simp only
  cases (s.serialize format x).result <;> rfl

/-- The items of a batch are processed in order by a schedule that takes each of them twice in a row, up to the first
failure. -/
theorem serializeBatch_gives (s : Serializer α η) (format : FloatFormat) (xs : List α) :
    ∃ schedule, ((start s xs).run format schedule).Gives (s.serializeBatch format xs).result := by
  -- the items before those that wait are done
  suffices go : ∀ (before : List (α × Progress)) (results : List Result),
      before.map Prod.snd = results.map (fun result => .done (.ok result)) →
      ∃ schedule, (Processing.run format ⟨s, before ++ xs.map (·, .waiting)⟩ schedule).Gives
        ((s.serializeBatch format xs).result.map (results ++ ·)) by
    obtain ⟨schedule, gives⟩ := go [] [] rfl
    refine ⟨schedule, ?_⟩
    rwa [show (s.serializeBatch format xs).result.map ([] ++ ·) = (s.serializeBatch format xs).result from
      Except.map_id' _] at gives
  induction xs generalizing s with
  | nil =>
    intro before results done
    refine ⟨[], ?_⟩
    change (before ++ []).map Prod.snd = (results ++ []).map _
    rwa [List.append_nil, List.append_nil]
  | cons x xs ih =>
    intro before results done
    have pair := run_pair s format before (xs.map (·, .waiting)) x
    rw [serializeBatch_cons]
    cases first : (s.serialize format x).result with
    | error failure =>
      refine ⟨[before.length, before.length], ?_⟩
      rw [List.map_cons, pair, first]
      exact ⟨(x, .done (.error failure)), List.mem_append_right _ List.mem_cons_self, rfl⟩
    | ok result =>
      obtain ⟨schedule, gives⟩ := ih (s.serialize format x).serializer (before ++ [(x, .done (.ok result))])
        (results ++ [result]) (by rw [List.map_append, List.map_append, done]; rfl)
      refine ⟨[before.length, before.length] ++ schedule, ?_⟩
      rw [run_append, List.map_cons, pair, first]
      rw [List.append_assoc] at gives
      have joined : (results ++ [result] ++ ·) = (results ++ ·) ∘ (result :: ·) :=
        funext fun rest => List.append_assoc results [result] rest
      rw [joined, ← Except.map_map] at gives
      exact gives

/-- A batch does not depend on the order in which its items are processed, and on what a cache keeps and drops meanwhile.
It succeeds exactly when every item does past the cache, and then gives each item what it has past the cache. Every
schedule that takes each item twice ends; the batch in order has such a result, and what is kept afterwards was made under
the same format. -/
theorem gives_alone (keeps : s.Keeps format s.memory) (xs : List α) :
    (∀ schedule outcome, ((start s xs).run format schedule).Gives outcome →
      ((∃ results, outcome = .ok results) ↔ ∀ x ∈ xs, ∃ o, s.alone format x = .ok o) ∧
      ∀ results, outcome = .ok results →
        List.Forall₂ (fun x result => s.alone format x = .ok result.output) xs results) ∧
    (∀ schedule : List Nat, (∀ i < xs.length, 2 ≤ schedule.count i) →
      ∃ outcome, ((start s xs).run format schedule).Gives outcome) ∧
    (∃ schedule, ((start s xs).run format schedule).Gives (s.serializeBatch format xs).result) ∧
    ∀ schedule, s.Later format ((start s xs).run format schedule).serializer := by
  have sound (schedule : List Nat) := (Sound.start keeps xs).run schedule
  refine ⟨fun schedule outcome gives => ?_, fun schedule => gives_of_twice, serializeBatch_gives s format xs,
    fun schedule => (sound schedule).serializer⟩
  simp only [Serializer.alone_eq_outputs]
  cases outcome with
  | ok results =>
    have each := (sound schedule).of_gives_ok gives
    refine ⟨⟨fun _ x mem => ?_, fun _ => ⟨results, rfl⟩⟩, ?_⟩
    · obtain ⟨result, -, given⟩ := each.exists_of_mem_left mem
      exact ⟨_, given⟩
    · rintro _ ⟨⟩
      exact each
  | error failure =>
    obtain ⟨x, mem, failed⟩ := (sound schedule).of_gives_error gives
    refine ⟨⟨fun ⟨_, eq⟩ => (nomatch eq), fun all => ?_⟩, fun _ eq => nomatch eq⟩
    obtain ⟨o, ok⟩ := all x mem
    cases failed.symm.trans ok

/-- Shops with and without an item, of one hash, in a cache with room for one of them, which was used before. -/
theorem gives_alone_shop :
    let s := Shop.serializer (some ⟨Shop.comparer, ⟨[], 0, some 1, 0, 0⟩⟩)
    let later := ((start s [true]).run .compact [0, 0]).serializer
    ∃ results, ((start later [false, true, false]).run .compact [1, 0, 2, 2, 0, 1]).Gives (.ok results) ∧
      List.Forall₂ (fun x result => later.alone .compact x = .ok result.output) [false, true, false] results := by
  intro s later
  have same : ∀ x y, Shop.comparer.equals x y = true → s.outputs .compact x .none = s.outputs .compact y .none :=
    fun x y equal => by rw [show x = y from beq_iff_eq.1 equal]
  have fresh : s.Keeps .compact s.memory := by
    rintro _ ⟨⟩
    exact ⟨.of_empty rfl, same⟩
  obtain ⟨memory, made, eq, kept⟩ := (gives_alone fresh [true]).2.2.2 [0, 0]
  have eq : later = s.remembering memory made := eq
  rw [eq]
  have keeps : (s.remembering memory made).Keeps .compact (s.remembering memory made).memory := kept
  obtain ⟨any, ends, -, -⟩ := gives_alone keeps [false, true, false]
  obtain ⟨outcome, gives⟩ := ends [1, 0, 2, 2, 0, 1] (by decide)
  obtain ⟨succeeds, each⟩ := any _ outcome gives
  obtain ⟨results, rfl⟩ := succeeds.2 fun x _ => by cases x <;> exact ⟨_, rfl⟩
  exact ⟨results, gives, each results rfl⟩

end Processing

end FeatureLines
