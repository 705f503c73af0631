import FeatureLines.Proofs.Cache
import FeatureLines.Proofs.Serializer.Forms
import FeatureLines.Serializer.Basic

/-!
# Calls on a serializer

A client calls a serializer and changes the format in force. A serializer with a cache is compared with the one that is
built without: their replies to any sequence of calls agree in examples and failures, and every reply of the first is what
the second gives under a format that was in force at some time (`Client.Beside.run`). The text of a cached result is that
of the format at the time when it was made, which is why the two are told apart exactly when some result depends on the
format in force (`Serializer.run_buildCached_eq_iff`).
-/

namespace FeatureLines

/-- A call on a serializer, or a change of the format in force. -/
inductive Call (α : Type) where
  | serialize (x : α)
  | labeled (x : α) (target : LabelTarget)
  | validate (x : α)
  | clearCache
  | setFormat (format : FloatFormat)

/-- What a call gives. -/
inductive Reply where
  | output (result : Except Error Output)
  | report (result : Except Error ValidationReport)
  | done

/-- A serializer in use, with the format in force. -/
structure Client (α η : Type) where
  serializer : Serializer α η
  format : FloatFormat

namespace Client

variable {α η : Type} [DecidableEq η]

def call (c : Client α η) : Call α → Client α η × Reply
  | .serialize x =>
    let answer := c.serializer.serialize c.format x
    ({ c with serializer := answer.serializer }, .output (answer.result.map Result.output))
  | .labeled x target =>
    let answer := c.serializer.serializeLabeled c.format x target
    ({ c with serializer := answer.serializer }, .output (answer.result.map Result.output))
  | .validate x => (c, .report (c.serializer.validate c.format x).1)
  | .clearCache => ({ c with serializer := c.serializer.clearCache }, .done)
  | .setFormat format => ({ c with format }, .done)

def run (c : Client α η) : List (Call α) → List Reply
  | [] => []
  | call :: rest => (c.call call).2 :: (c.call call).1.run rest

end Client

namespace Serializer

variable {α η : Type} {s : Serializer α η} {cmp : Comparer α η}

/-- What a serializer gives for a subject past the cache. -/
def outputs (s : Serializer α η) (format : FloatFormat) (x : α) (target : LabelTarget) : Except Error Output :=
  (s.plan.serialize s.engine s.options format (s.recordOf x) target).result.mapError Error.label

/-- No result depends on the format in force. -/
def Fixed (s : Serializer α η) : Prop := ∀ x f f', s.outputs f x .none = s.outputs f' x .none

/-- A serializer with a memory and a number of results made. -/
def remembering (s : Serializer α η) (memory : Option (Memory α η)) (made : Nat) : Serializer α η :=
  { s with memory, made }

/-- Two formats give the same examples or the same failure. -/
lemma outputs_native (s : Serializer α η) (x : α) (target : LabelTarget) (format format' : FloatFormat) :
    (s.outputs format x target).map Output.native = (s.outputs format' x target).map Output.native := by
  unfold outputs
  rw [Except.map_mapError, Except.map_mapError, s.plan.serialize_native_default s.engine s.options format format']

/-- Neither the memory nor the number of results plays a part in what is computed. -/
lemma compute_outputs (s : Serializer α η) (memory : Option (Memory α η)) (made : Nat) (format : FloatFormat) (x : α)
    (target : LabelTarget) :
    ((s.remembering memory made).compute format x target).result.map Result.output = s.outputs format x target := by
  unfold compute outputs remembering
  rw [Except.map_map]
  exact Except.map_id' _

/-- A serializer with a cache is the one without, and an empty cache with room for a result. -/
lemma buildCached_eq_ok {recordOf : α → Record} {c : Catalogue} {id : Nat} {r : Registry} {engine : Engine}
    {options : Options} (built : buildCached recordOf cmp c id r engine options = .ok s) :
    ∃ (u : Serializer α η) (cache : Cache α η Result), build recordOf c id r engine options = .ok u ∧
      u = u.remembering none 0 ∧ s = u.remembering (some ⟨cmp, cache⟩) 0 ∧
      cache.buckets = [] ∧ cache.size = 0 ∧ cache.bound ≠ some 0 := by
  obtain ⟨cache, fresh, built⟩ := Except.bind_eq_ok.1 built
  obtain ⟨u, plain, done⟩ := Except.bind_eq_ok.1 built
  have made := plain
  obtain ⟨_, -, rest⟩ := Except.bind_eq_ok.1 made
  obtain ⟨plan, -, eq⟩ := Except.bind_eq_ok.1 rest
  cases eq
  cases done
  have fresh := Except.mapError_eq_ok.1 fresh
  unfold Cache.new at fresh
  split at fresh
  · cases fresh
  · rename_i room
    cases fresh
    exact ⟨_, _, plain, rfl, rfl, rfl, rfl, room⟩

/-- Options that name a format, or that do without the text form, fix every result. -/
lemma fixed_of_build {recordOf : α → Record} {c : Catalogue} {id : Nat} {r : Registry} {engine : Engine}
    {options : Options} (built : build recordOf c id r engine options = .ok s)
    (named : options.floatFormat.isSome ∨ options.text = false) : s.Fixed := by
  obtain ⟨_, -, rest⟩ := Except.bind_eq_ok.1 built
  obtain ⟨plan, compiled, eq⟩ := Except.bind_eq_ok.1 rest
  cases eq
  have kind := (Plan.compile_spec (Except.mapError_eq_ok.1 compiled)).1
  intro x f f'
  refine congrArg (Except.mapError Error.label) (Plan.serialize_default ?_ f f' _ _)
  refine named.imp_right fun off => ?_
  rw [kind, Options.outputKind, off]
  rfl

end Serializer

/-! ## A serializer with a cache beside one without -/

def Reply.text? : Reply → Option String
  | .output (.ok o) => o.text
  | _ => none

/-- Two replies agree in examples and failures. -/
def Reply.Agrees : Reply → Reply → Prop
  | .output a, .output b => a.map Output.native = b.map Output.native
  | a, b => a = b

lemma Reply.Agrees.refl (a : Reply) : a.Agrees a := by
  cases a <;> rfl

/-- A reply is the other one, or both are outputs for one subject under formats of some set. -/
def Reply.Within {α η : Type} (s : Serializer α η) (formats : FloatFormat → Prop) (a b : Reply) : Prop :=
  a = b ∨ ∃ x f f', formats f ∧ formats f' ∧ a = .output (s.outputs f x .none) ∧ b = .output (s.outputs f' x .none)

section

variable {α η : Type} [DecidableEq η] {s : Serializer α η} {cmp : Comparer α η} {formats : FloatFormat → Prop}

/-- Every stored result was made for its subject under a format of some set. -/
def Serializer.Stores (s : Serializer α η) (formats : FloatFormat → Prop) (cache : Cache α η Result) : Prop :=
  cache.All fun x result => ∃ f, formats f ∧ s.outputs f x .none = .ok result.output

/-- A client of a serializer with a cache, and a client of the serializer without, under one format in force. -/
inductive Client.Beside (s : Serializer α η) (cmp : Comparer α η) (formats : FloatFormat → Prop) :
    Client α η → Client α η → Prop
  | intro {cache : Cache α η Result} {made made' : Nat} {format : FloatFormat} (stores : s.Stores formats cache)
      (current : formats format) :
      Beside s cmp formats ⟨s.remembering (some ⟨cmp, cache⟩) made, format⟩ ⟨s.remembering none made', format⟩

/-- A serializer with a cache gives what a request to the cache comes to. -/
lemma Serializer.serialize_remembering (s : Serializer α η) (cmp : Comparer α η) (cache : Cache α η Result) (made : Nat)
    (format : FloatFormat) (x : α) :
    let computed := (s.remembering (some ⟨cmp, cache⟩) made).compute format x .none
    let given := cache.getOrCompute cmp x fun c => (c, computed.result)
    (s.remembering (some ⟨cmp, cache⟩) made).serialize format x =
      ⟨s.remembering (some ⟨cmp, given.1⟩) (made + 1), given.2,
        if given.1.misses = cache.misses then [] else computed.events⟩ := rfl

/-- A cached serialization gives what a serialization past the cache gives, under a format of the set. -/
lemma Serializer.serialize_stores (same : ∀ x y, cmp.equals x y = true → ∀ f, s.outputs f x .none = s.outputs f y .none)
    {cache : Cache α η Result} (stores : s.Stores formats cache) {format : FloatFormat} (current : formats format)
    (made : Nat) (x : α) :
    (∃ cache' made', s.Stores formats cache' ∧
      ((s.remembering (some ⟨cmp, cache⟩) made).serialize format x).serializer =
        s.remembering (some ⟨cmp, cache'⟩) made') ∧
    ∃ f, formats f ∧
      ((s.remembering (some ⟨cmp, cache⟩) made).serialize format x).result.map Result.output = s.outputs f x .none := by
  have outputs := s.compute_outputs (some ⟨cmp, cache⟩) made format x .none
  rw [serialize_remembering]
  simp only
  generalize ((s.remembering (some ⟨cmp, cache⟩) made).compute format x .none).result = computed at outputs ⊢
  obtain ⟨kept, hit, failed⟩ := stores.getOrCompute cmp x (fun c => (c, computed)) fun _ h =>
    ⟨h, fun result ok => ⟨format, current, by rw [← outputs, show computed = .ok result from ok]; rfl⟩⟩
  refine ⟨⟨_, _, kept, rfl⟩, ?_⟩
  cases given : (cache.getOrCompute cmp x fun c => (c, computed)).2 with
  | error failure =>
    obtain ⟨_, eq⟩ := failed failure given
    exact ⟨format, current, by rw [← outputs, show computed = .error failure from eq]⟩
  | ok result =>
    obtain ⟨y, ⟨f, member, eq⟩, rfl | equal⟩ := hit result given
    · exact ⟨f, member, eq.symm⟩
    · exact ⟨f, member, by rw [← same y x equal f, eq]; rfl⟩

namespace Client

variable {c d : Client α η}

/-- A call keeps the two beside each other, and its two replies lie within the formats. -/
theorem Beside.call (same : ∀ x y, cmp.equals x y = true → ∀ f, s.outputs f x .none = s.outputs f y .none)
    (h : Beside s cmp formats c d) (call : Call α) (sets : ∀ f, call = .setFormat f → formats f) :
    Beside s cmp formats (c.call call).1 (d.call call).1 ∧ (c.call call).2.Within s formats (d.call call).2 := by
  obtain @⟨cache, made, made', format, stores, current⟩ := h
  cases call with
  | serialize x =>
    obtain ⟨⟨cache', made'', stores', eq⟩, f, member, given⟩ := s.serialize_stores same stores current made x
    refine ⟨?_, .inr ⟨x, f, format, member, current, congrArg Reply.output given, congrArg Reply.output ?_⟩⟩
    · simp only [Client.call, eq]
      exact .intro stores' current
    · exact s.compute_outputs none made' format x .none
  | labeled x target =>
    refine ⟨.intro stores current, .inl (congrArg Reply.output ?_)⟩
    exact (s.compute_outputs _ made format x target).trans (s.compute_outputs none made' format x target).symm
  | validate x => exact ⟨.intro stores current, .inl rfl⟩
  | clearCache => exact ⟨.intro (.of_empty rfl) current, .inl rfl⟩
  | setFormat f => exact ⟨.intro stores (sets f rfl), .inl rfl⟩

/-- The replies to a run of calls lie within the formats. -/
theorem Beside.run (same : ∀ x y, cmp.equals x y = true → ∀ f, s.outputs f x .none = s.outputs f y .none)
    (h : Beside s cmp formats c d) (calls : List (Call α)) (sets : ∀ f, .setFormat f ∈ calls → formats f) :
    List.Forall₂ (Reply.Within s formats) (c.run calls) (d.run calls) := by
  induction calls generalizing c d with
  | nil => exact .nil
  | cons call calls ih =>
    obtain ⟨next, within⟩ := h.call same call fun f eq => sets f (eq ▸ List.mem_cons_self)
    exact .cons within (ih next fun f mem => sets f (List.mem_cons_of_mem _ mem))

end Client

/-! ## Telling the two apart -/

namespace Serializer

/-- A result that was made for a subject is given for it again, whatever the format is by then. -/
lemma serialize_again {cache : Cache α η Result} (empty : cache.buckets = []) (size : cache.size = 0)
    (room : cache.bound ≠ some 0) {x : α} (own : cmp.equals x x = true) {f : FloatFormat} {o : Output}
    (ok : s.outputs f x .none = .ok o) (made : Nat) (f' : FloatFormat) :
    (((s.remembering (some ⟨cmp, cache⟩) made).serialize f x).serializer.serialize f' x).result.map Result.output =
      .ok o := by
  have computed : ((s.remembering (some ⟨cmp, cache⟩) made).compute f x .none).result = .ok ⟨made, o⟩ :=
    congrArg (Except.map _) ok
  obtain ⟨cache', first, stored⟩ : ∃ cache' : Cache α η Result,
      ((s.remembering (some ⟨cmp, cache⟩) made).serialize f x).serializer =
        s.remembering (some ⟨cmp, cache'⟩) (made + 1) ∧ cache'.buckets = [⟨cmp.hashOf x, [(x, ⟨made, o⟩)]⟩] := by
    rw [serialize_remembering]
    simp only [computed]
    rw [Cache.getOrCompute_empty empty size room]
    exact ⟨_, rfl, rfl⟩
  rw [first, serialize_remembering]
  exact congrArg (Except.map Result.output) (Cache.getOrCompute_stored stored own _)

/-- A serializer with a cache and the one without give the same replies to every run of calls exactly when no result
depends on the format in force, as when the options name one or do without the text form. In any case the two agree in
examples and failures, and they give the same replies as long as the format stays. -/
theorem run_buildCached_eq_iff {recordOf : α → Record} {c : Catalogue} {id : Nat} {r : Registry} {engine : Engine}
    {options : Options} (built : buildCached recordOf cmp c id r engine options = .ok s)
    (own : ∀ x, cmp.equals x x = true)
    (same : ∀ x y, cmp.equals x y = true → ∀ f, s.outputs f x .none = s.outputs f y .none) :
    ∃ u : Serializer α η, build recordOf c id r engine options = .ok u ∧
      ((∀ format calls, (Client.mk s format).run calls = (Client.mk u format).run calls) ↔ u.Fixed) ∧
      (options.floatFormat.isSome ∨ options.text = false → u.Fixed) ∧
      (∀ format calls, List.Forall₂ Reply.Agrees ((Client.mk s format).run calls) ((Client.mk u format).run calls)) ∧
      ∀ format calls, (∀ f, .setFormat f ∈ calls → f = format) →
        (Client.mk s format).run calls = (Client.mk u format).run calls := by
  obtain ⟨u, cache, plain, bare, rfl, empty, size, room⟩ := buildCached_eq_ok built
  have beside (formats : FloatFormat → Prop) (format : FloatFormat) (current : formats format) :
      Client.Beside u cmp formats ⟨u.remembering (some ⟨cmp, cache⟩) 0, format⟩ ⟨u, format⟩ := by
    have start : Client.Beside u cmp formats ⟨u.remembering (some ⟨cmp, cache⟩) 0, format⟩ ⟨u.remembering none 0, format⟩ :=
      .intro (Cache.All.of_empty empty) current
    rwa [← bare] at start
  have same : ∀ x y, cmp.equals x y = true → ∀ f, u.outputs f x .none = u.outputs f y .none := same
  -- the two are told apart by one subject before and after a change of the format
  refine ⟨u, plain, ⟨fun equal x f f' => ?_, fun fixed format calls => ?_⟩, fixed_of_build plain, fun format calls => ?_,
    fun format calls sets => ?_⟩
  · have native := u.outputs_native x .none f f'
    cases first : u.outputs f x .none with
    | error failure =>
      rw [first] at native
      cases second : u.outputs f' x .none with
      | error failure' =>
        rw [second] at native
        exact congrArg Except.error (Except.error.inj native)
      | ok o =>
        rw [second] at native
        cases native
    | ok o =>
      have again := serialize_again (s := u) empty size room (own x) first 0 f'
      have anew : ((u.serialize f x).serializer.serialize f' x).result.map Result.output = u.outputs f' x .none := by
        rw [bare]
        exact u.compute_outputs none 1 f' x .none
      have replies := equal f [.serialize x, .setFormat f', .serialize x]
      simp only [Client.run, Client.call, List.cons.injEq, Reply.output.injEq] at replies
      rw [← again, ← anew]
      exact replies.2.2.1
  · have within := (beside (fun _ => True) format trivial).run same calls fun _ _ => trivial
    refine List.forall₂_eq_eq_eq ▸ within.imp ?_
    rintro _ _ (eq | ⟨x, f, f', -, -, rfl, rfl⟩)
    · exact eq
    · exact congrArg Reply.output (fixed x f f')
  · refine ((beside (fun _ => True) format trivial).run same calls fun _ _ => trivial).imp ?_
    rintro a _ (rfl | ⟨x, f, f', -, -, rfl, rfl⟩)
    · exact Reply.Agrees.refl a
    · exact u.outputs_native x .none f f'
  · have within := (beside (· = format) format rfl).run same calls sets
    refine List.forall₂_eq_eq_eq ▸ within.imp ?_
    rintro _ _ (eq | ⟨x, f, f', rfl, rfl, rfl, rfl⟩)
    · exact eq
    · rfl

end Serializer

end

/-! ## An example -/

namespace Shop

/-- Shops with and without an item are told apart by the cache, though their hashes collide. -/
def comparer : Comparer Bool Unit := ⟨fun a b => a == b, fun _ => ()⟩

def recordOf (present : Bool) : Record := record (if present then some item else none)

/-- A serializer for both forms. -/
def serializer (memory : Option (Memory Bool Unit)) : Serializer Bool Unit :=
  ⟨recordOf, .reference 7, { text := true, cacheMaxEntries := some 1 }, .empty, plan .nativeAndText, memory, 0⟩

lemma build_eq :
    Serializer.build recordOf catalogue 0 .empty (.reference 7) { text := true, cacheMaxEntries := some 1 } =
      .ok (serializer none) := by
  have compiled := Except.mapError_eq_ok (f := Error.schema).2 (compile_eq .nativeAndText)
  exact Except.bind_eq_ok.2 ⟨(), rfl, Except.bind_eq_ok.2 ⟨_, compiled, rfl⟩⟩

lemma buildCached_eq :
    Serializer.buildCached recordOf comparer catalogue 0 .empty (.reference 7)
      { text := true, cacheMaxEntries := some 1 } = .ok (serializer (some ⟨comparer, ⟨[], 0, some 1, 0, 0⟩⟩)) :=
  Except.bind_eq_ok.2 ⟨_, rfl, Except.bind_eq_ok.2 ⟨_, build_eq, rfl⟩⟩

end Shop

/-- After a change of the format in force, a serializer with a cache gives the text of before, and the one without gives
that of the new format. -/
theorem Serializer.run_buildCached_ne :
    ∃ s u : Serializer Bool Unit,
      buildCached Shop.recordOf Shop.comparer Shop.catalogue 0 .empty (.reference 7)
        { text := true, cacheMaxEntries := some 1 } = .ok s ∧
      build Shop.recordOf Shop.catalogue 0 .empty (.reference 7) { text := true, cacheMaxEntries := some 1 } = .ok u ∧
      ((Client.mk s .compact).run [.serialize false, .setFormat .scientific, .serialize false]).map Reply.text? =
        [some "1 | price:3 |attrs a:b:1 |dense 0:1 1:5 3:7", none, some "1 | price:3 |attrs a:b:1 |dense 0:1 1:5 3:7"] ∧
      ((Client.mk u .compact).run [.serialize false, .setFormat .scientific, .serialize false]).map Reply.text? =
        [some "1 | price:3 |attrs a:b:1 |dense 0:1 1:5 3:7", none,
          some ("1 | price:3.00000000e0 |attrs a:b:1.00000000e0 " ++
            "|dense 0:1.00000000e0 1:5.00000000e0 3:7.00000000e0")] :=
  ⟨_, _, Shop.buildCached_eq, Shop.build_eq, by decide +kernel, by decide +kernel⟩

/-- Every hypothesis of `run_buildCached_eq_iff` holds of shops. -/
theorem Serializer.run_buildCached_eq_iff_shop :
    ∃ u : Serializer Bool Unit, ¬u.Fixed ∧
      ∀ calls, (∀ f, .setFormat f ∈ calls → f = .compact) →
        (Client.mk (Shop.serializer (some ⟨Shop.comparer, ⟨[], 0, some 1, 0, 0⟩⟩)) .compact).run calls =
          (Client.mk u .compact).run calls := by
  have own (x : Bool) : Shop.comparer.equals x x = true := beq_self_eq_true x
  obtain ⟨u, plain, iff, -, -, stays⟩ := run_buildCached_eq_iff Shop.buildCached_eq own fun x y equal f => by
    rw [show x = y from beq_iff_eq.1 equal]
  refine ⟨u, fun fixed => ?_, fun calls => stays .compact calls⟩
  have texts := congrArg (List.map Reply.text?)
    (iff.2 fixed .compact [.serialize false, .setFormat .scientific, .serialize false])
  rw [Shop.build_eq] at plain
  cases plain
  exact absurd texts (by decide +kernel)

end FeatureLines
