import FeatureLines.Proofs.Marshal.Content
import FeatureLines.Proofs.Serializer.Compiling
import FeatureLines.Serializer.Pool

/-!
# Plans that are kept

Compiling reads of a registry what it gives for types (`Plan.compile_congr`). So a plan that was compiled for one registry
is what is compiled for any other that is served from the same shelf, if those give the same marshallers. A pool that keeps
only such plans is sound (`Pool.Sound`), and a request answers from a sound pool what compiling gives, and leaves it sound
(`Pool.request_spec`). A record type that does not compile is not kept (`Pool.lookup_request`).

The number of a compilation tells its plan from all others, also from those that have been released: whatever is done with a
pool, a number is not given again (`Pool.Advances.eq_of_serial`).
-/

namespace FeatureLines

section Compile

variable {c : Catalogue} {r r' : Registry} (same : ∀ type, r.get? type = r'.get? type)
include same

/-- A marshaller is resolved by what the registry gives for types, and by nothing else. -/
lemma resolve_congr (type : String) (d : Descriptor) : resolve type r d = resolve type r' d := by
  unfold resolve
  rw [same]

/-- Registries that give the same for every type have the same lines compiled. -/
lemma LinePlan.compile_congr (id : Nat) : LinePlan.compile c r id = LinePlan.compile c r' id := by
  have block (g : Group) : Block.ofGroup (c.name id) r g = Block.ofGroup (c.name id) r' g := by
    unfold Block.ofGroup
    rw [funext (resolve_congr same (c.name id))]
  unfold compile
  rw [funext block]

/-- Registries that give the same marshallers are compiled for in the same way. -/
lemma Plan.compile_congr (kind : OutputKind) (id : Nat) : Plan.compile c r kind id = Plan.compile c r' kind id := by
  unfold compile
  rw [funext (LinePlan.compile_congr same)]

end Compile

namespace Plan

variable {c : Catalogue} {r : Registry} {kind : OutputKind} {id : Nat}

/-- A type without candidates has its lines for a plan. -/
lemma compile_of_alone (alone : actionMember c id = .ok none) (r : Registry) (kind : OutputKind) :
    Plan.compile c r kind id = (LinePlan.compile c r id).map fun line => ⟨kind, line, none⟩ := by
  unfold compile
  rw [alone]
  cases LinePlan.compile c r id <;> rfl

/-- Compiles the candidates of a record type, if it has any. -/
def compileActions (c : Catalogue) (r : Registry) (id : Nat) : Except SchemaError (Option ActionPlan) :=
  (actionMember c id).bind fun
    | none => .ok none
    | some (member, candidate) =>
      (LinePlan.compile c r candidate).bind fun line => (ActionPlan.ofCandidate member line).map some

/-- A record type is compiled to its lines and its candidates. -/
lemma compile_eq_actions : Plan.compile c r kind id =
    (LinePlan.compile c r id).bind fun line => (compileActions c r id).map fun actions => ⟨kind, line, actions⟩ := by
  unfold compile compileActions
  refine congrArg (Except.bind (LinePlan.compile c r id)) (funext fun line => ?_)
  rcases actionMember c id with failure | _ | ⟨member, candidate⟩
  · rfl
  · rfl
  · change Except.bind (LinePlan.compile c r candidate) _ = Except.map _ (Except.bind (LinePlan.compile c r candidate) _)
    cases LinePlan.compile c r candidate with
    | error failure => rfl
    | ok inner =>
      change Except.bind (ActionPlan.ofCandidate member inner) _ = Except.map _ (Except.map _ _)
      cases ActionPlan.ofCandidate member inner <;> rfl

/-- The candidates of a type that is compiled are of another type. -/
lemma ne_of_actionMember {member : Placed} {candidate : Nat}
    (found : actionMember c id = .ok (some (member, candidate))) : candidate ≠ id := by
  rintro rfl
  cases found.symm.trans (actionMember_eq_some found).2

end Plan

/-- Which registries have their plans on a shelf. -/
abbrev Service := Shelf → Registry → Prop

/-- Registries of one shelf give the same marshallers. -/
def Service.Uniform (serves : Service) : Prop :=
  ∀ shelf r r', serves shelf r → serves shelf r' → ∀ type, r.get? type = r'.get? type

namespace Pool

/-- What is kept is what is compiled for any registry that it is kept for. -/
def Sound (c : Catalogue) (serves : Service) (pool : Pool) : Prop :=
  ∀ key compiled, (key, compiled) ∈ pool.plans → ∀ r, serves key.shelf r →
    Plan.compile c r key.kind key.type = .ok compiled.plan

/-- A pool has come to keep more, on one shelf. -/
structure Grows (shelf : Shelf) (pool pool' : Pool) : Prop where
  stores : pool'.stores = pool.stores
  added : ∀ key compiled, (key, compiled) ∈ pool'.plans → (key, compiled) ∈ pool.plans ∨ key.shelf = shelf
  kept : ∀ key compiled, pool.plans.lookup key = some compiled → pool'.plans.lookup key = some compiled

variable {c : Catalogue} {serves : Service} {pool pool' pool'' : Pool} {h : Holder} {kind : OutputKind} {id : Nat}
  {shelf : Shelf} {key : PlanKey}

namespace Grows

lemma refl : pool.Grows shelf pool := ⟨rfl, fun _ _ mem => .inl mem, fun _ _ found => found⟩

lemma trans (first : pool.Grows shelf pool') (second : pool'.Grows shelf pool'') : pool.Grows shelf pool'' := by
  refine ⟨second.stores.trans first.stores, fun key compiled mem => ?_, fun key compiled found => ?_⟩
  · rcases second.added key compiled mem with old | here
    · exact first.added key compiled old
    · exact .inr here
  · exact second.kept key compiled (first.kept key compiled found)

end Grows

/-- A plan that is kept is found under its key, and other keys find what they found before. -/
lemma lookup_keep (key other : PlanKey) (plan : Plan) : (pool.keep key plan).1.plans.lookup other =
    if other = key then some ⟨pool.compilations, plan⟩ else pool.plans.lookup other := by
  unfold keep
  rw [List.lookup_cons]
  by_cases same : other = key
  · rw [if_pos same, beq_iff_eq.2 same]
  · rw [if_neg same, beq_eq_false_iff_ne.2 same]

/-- Keeping a plan that was missing takes none away. -/
lemma grows_keep (missing : pool.plans.lookup key = none) (plan : Plan) :
    pool.Grows key.shelf (pool.keep key plan).1 := by
  refine ⟨rfl, fun other compiled mem => ?_, fun other compiled found => ?_⟩
  · rcases List.mem_cons.1 mem with new | old
    · cases new
      exact .inr rfl
    · exact .inl old
  · rw [lookup_keep, if_neg ?_]
    · exact found
    · rintro rfl
      cases missing.symm.trans found

/-- Keeping what was compiled for one registry of a shelf is right for all of them. -/
lemma Sound.keep (sound : pool.Sound c serves) (uniform : serves.Uniform) {r : Registry} {plan : Plan}
    (served : serves key.shelf r) (compiled : Plan.compile c r key.kind key.type = .ok plan) :
    (pool.keep key plan).1.Sound c serves := by
  intro other kept mem r' served'
  rcases List.mem_cons.1 mem with new | old
  · cases new
    rw [Plan.compile_congr (uniform key.shelf r' r served' served)]
    exact compiled
  · exact sound other kept old r' served'

/-- What is found is what would be compiled. -/
lemma Sound.lookup (sound : pool.Sound c serves) {compiled : Compiled} (found : pool.plans.lookup key = some compiled)
    {r : Registry} (served : serves key.shelf r) : Plan.compile c r key.kind key.type = .ok compiled.plan := by
  obtain ⟨before, after, split, -⟩ := List.lookup_eq_some_iff.1 found
  refine sound key compiled ?_ r served
  rw [split]
  exact List.mem_append_right _ (List.mem_cons_self ..)

/-! ## Requests -/

/-- What a request makes of a pool that answers for a shelf. -/
structure SoundGrowth (c : Catalogue) (serves : Service) (shelf : Shelf) (pool pool' : Pool) : Prop where
  sound : pool'.Sound c serves
  grows : pool.Grows shelf pool'

/-- The lines of a candidate are what compiling gives. -/
lemma requestCandidate_spec (uniform : serves.Uniform) (sound : pool.Sound c serves) (served : serves h.shelf h.registry)
    (alone : Plan.actionMember c id = .ok none) (kind : OutputKind) :
    (pool.requestCandidate c h kind id).2 = LinePlan.compile c h.registry id ∧
      pool.SoundGrowth c serves h.shelf (pool.requestCandidate c h kind id).1 := by
  have compile := Plan.compile_of_alone alone h.registry kind
  unfold requestCandidate
  split
  · rename_i compiled found
    have same := sound.lookup found served
    rw [compile] at same
    obtain ⟨line, lines, plan⟩ := Except.map_eq_ok.1 same
    refine ⟨?_, sound, .refl⟩
    rw [lines, ← plan]
  · rename_i missing
    split
    · rename_i failure failed
      exact ⟨failed.symm, sound, .refl⟩
    · rename_i line lines
      refine ⟨lines.symm, sound.keep uniform served ?_, grows_keep missing _⟩
      rw [compile, lines]
      rfl

/-- A request for candidates leaves the plans of other types as they are. -/
lemma lookup_requestCandidate (other : key.type ≠ id) :
    (pool.requestCandidate c h kind id).1.plans.lookup key = pool.plans.lookup key := by
  unfold requestCandidate
  split
  · rfl
  · split
    · rfl
    · rw [lookup_keep, if_neg]
      rintro rfl
      exact other rfl

/-- The candidates of a record type are what compiling gives, and its own plan is neither kept nor lost. -/
lemma requestActions_spec (uniform : serves.Uniform) (sound : pool.Sound c serves) (served : serves h.shelf h.registry)
    (kind : OutputKind) (id : Nat) :
    (pool.requestActions c h kind id).2 = Plan.compileActions c h.registry id ∧
      pool.SoundGrowth c serves h.shelf (pool.requestActions c h kind id).1 := by
  unfold requestActions Plan.compileActions
  split
  · rename_i failure failed
    rw [failed]
    exact ⟨rfl, sound, .refl⟩
  · rename_i none
    rw [none]
    exact ⟨rfl, sound, .refl⟩
  · rename_i member candidate found
    obtain ⟨line, after⟩ := requestCandidate_spec uniform sound served (Plan.actionMember_eq_some found).2 kind
    rw [found]
    simp only [line]
    exact ⟨rfl, after⟩

/-- Compiling candidates keeps nothing under the key of the record type itself, since candidates are of another type. -/
lemma lookup_requestActions (same : key.type = id) :
    (pool.requestActions c h kind id).1.plans.lookup key = pool.plans.lookup key := by
  unfold requestActions
  split
  · rfl
  · rfl
  · rename_i member candidate found
    refine lookup_requestCandidate fun type => ?_
    exact Plan.ne_of_actionMember found (type.symm.trans same)

/-- How a request goes: its plan is kept, or the record type or its candidates do not compile, or its plan is kept from
now on. -/
inductive Asked (c : Catalogue) (pool : Pool) (h : Holder) (kind : OutputKind) (id : Nat) :
    Pool × Except SchemaError Compiled → Prop
  | kept {compiled : Compiled} (found : pool.plans.lookup ⟨h.shelf, kind, id⟩ = some compiled) :
      Asked c pool h kind id (pool, .ok compiled)
  | noLine {failure : SchemaError} (missing : pool.plans.lookup ⟨h.shelf, kind, id⟩ = none)
      (failed : LinePlan.compile c h.registry id = .error failure) : Asked c pool h kind id (pool, .error failure)
  | noActions {line : LinePlan} {failure : SchemaError} {pool' : Pool}
      (missing : pool.plans.lookup ⟨h.shelf, kind, id⟩ = none) (compiled : LinePlan.compile c h.registry id = .ok line)
      (failed : pool.requestActions c h kind id = (pool', .error failure)) : Asked c pool h kind id (pool', .error failure)
  | new {line : LinePlan} {actions : Option ActionPlan} {pool' : Pool}
      (missing : pool.plans.lookup ⟨h.shelf, kind, id⟩ = none) (compiled : LinePlan.compile c h.registry id = .ok line)
      (found : pool.requestActions c h kind id = (pool', .ok actions)) :
      Asked c pool h kind id ((pool'.keep ⟨h.shelf, kind, id⟩ ⟨kind, line, actions⟩).1,
        .ok ⟨pool'.compilations, ⟨kind, line, actions⟩⟩)

/-- Every request goes in one of these ways. -/
lemma asked (c : Catalogue) (pool : Pool) (h : Holder) (kind : OutputKind) (id : Nat) :
    Asked c pool h kind id (pool.request c h kind id) := by
  unfold request
  split
  · rename_i compiled found
    exact .kept found
  · rename_i missing
    split
    · rename_i failure failed
      exact .noLine missing failed
    · rename_i line compiled
      split
      · rename_i pool' failure failed
        exact .noActions missing compiled failed
      · rename_i pool' actions found
        exact .new missing compiled found

/-- A request is answered with what compiling gives, whether it was kept or not. -/
theorem request_spec (uniform : serves.Uniform) (sound : pool.Sound c serves) (served : serves h.shelf h.registry)
    (kind : OutputKind) (id : Nat) :
    (pool.request c h kind id).2.map Compiled.plan = Plan.compile c h.registry kind id ∧
      pool.SoundGrowth c serves h.shelf (pool.request c h kind id).1 := by
  obtain ⟨actions, after⟩ := requestActions_spec uniform sound served kind id
  have asked := asked c pool h kind id
  generalize pool.request c h kind id = answer at asked ⊢
  cases asked with
  | kept found => exact ⟨(sound.lookup found served).symm, sound, .refl⟩
  | noLine missing failed =>
    rw [Plan.compile_eq_actions, failed]
    exact ⟨rfl, sound, .refl⟩
  | noActions missing compiled failed =>
    rw [failed] at actions after
    rw [Plan.compile_eq_actions, compiled, ← actions]
    exact ⟨rfl, after⟩
  | @new line found pool' missing compiled request =>
    -- the request for the candidates has not kept a plan for the record type itself
    have own : (pool.requestActions c h kind id).1.plans.lookup ⟨h.shelf, kind, id⟩ =
        pool.plans.lookup ⟨h.shelf, kind, id⟩ :=
      lookup_requestActions rfl
    rw [request] at actions after own
    have compile : Plan.compile c h.registry kind id = .ok ⟨kind, line, found⟩ := by
      rw [Plan.compile_eq_actions, compiled, ← actions]
      rfl
    refine ⟨compile.symm, after.sound.keep uniform served compile, after.grows.trans ?_⟩
    exact grows_keep (own.trans missing) _

/-- What was asked for is kept from then on, and is not there if it does not compile. -/
theorem lookup_request :
    (pool.request c h kind id).1.plans.lookup ⟨h.shelf, kind, id⟩ = (pool.request c h kind id).2.toOption := by
  have own : (pool.requestActions c h kind id).1.plans.lookup ⟨h.shelf, kind, id⟩ = pool.plans.lookup ⟨h.shelf, kind, id⟩ :=
    lookup_requestActions rfl
  have asked := asked c pool h kind id
  generalize pool.request c h kind id = answer at asked ⊢
  cases asked with
  | kept found => exact found
  | noLine missing failed => exact missing
  | noActions missing compiled failed =>
    rw [failed] at own
    exact own.trans missing
  | new missing compiled found => rw [lookup_keep, if_pos rfl]; rfl

/-! ## Numbers of compilations -/

/-- The plans that are kept have numbers that were given, each one its own. -/
structure Numbered (pool : Pool) : Prop where
  given : ∀ kept ∈ pool.plans, kept.2.serial < pool.compilations
  apart : ∀ kept ∈ pool.plans, ∀ kept' ∈ pool.plans, kept.2.serial = kept'.2.serial → kept = kept'

/-- Plans may have gone from a pool, and those that have come have numbers that were not given before. -/
structure Advances (pool pool' : Pool) : Prop where
  compilations : pool.compilations ≤ pool'.compilations
  new : ∀ kept ∈ pool'.plans, kept ∈ pool.plans ∨ pool.compilations ≤ kept.2.serial
  numbered : pool.Numbered → pool'.Numbered

lemma numbered_empty : empty.Numbered := ⟨nofun, nofun⟩

namespace Advances

lemma refl : pool.Advances pool := ⟨le_rfl, fun _ mem => .inl mem, id⟩

lemma trans (first : pool.Advances pool') (second : pool'.Advances pool'') : pool.Advances pool'' := by
  refine ⟨first.compilations.trans second.compilations, fun kept mem => ?_, fun numbered => ?_⟩
  · rcases second.new kept mem with old | new
    · exact first.new kept old
    · exact .inr (first.compilations.trans new)
  · exact second.numbered (first.numbered numbered)

/-- A number that a plan was kept by stands for this plan from then on. -/
theorem eq_of_serial (advances : pool.Advances pool') (numbered : pool.Numbered) {kept kept' : PlanKey × Compiled}
    (mem : kept ∈ pool.plans) (mem' : kept' ∈ pool'.plans) (same : kept'.2.serial = kept.2.serial) : kept' = kept := by
  rcases advances.new kept' mem' with old | new
  · exact numbered.apart kept' old kept mem same
  · rw [same] at new
    exact absurd (numbered.given kept mem) new.not_gt

end Advances

/-- What is kept is kept by the number that comes next. -/
lemma advances_keep (key : PlanKey) (plan : Plan) : pool.Advances (pool.keep key plan).1 := by
  refine ⟨Nat.le_succ _, fun kept mem => ?_, fun numbered => ⟨fun kept mem => ?_, fun kept mem kept' mem' same => ?_⟩⟩
  · rcases List.mem_cons.1 mem with rfl | old
    · exact .inr le_rfl
    · exact .inl old
  · rcases List.mem_cons.1 mem with rfl | old
    · exact Nat.lt_succ_self _
    · exact (numbered.given kept old).trans (Nat.lt_succ_self _)
  · rcases List.mem_cons.1 mem with rfl | old <;> rcases List.mem_cons.1 mem' with rfl | old'
    · rfl
    · exact absurd same.symm (numbered.given kept' old').ne
    · exact absurd same (numbered.given kept old).ne
    · exact numbered.apart kept old kept' old' same

/-- Plans that are released take no numbers back. -/
lemma advances_release (holders : List Holder) : pool.Advances (pool.release holders) :=
  have kept {binding : PlanKey × Compiled} (mem : binding ∈ (pool.release holders).plans) : binding ∈ pool.plans :=
    (List.mem_filter.1 mem).1
  ⟨le_rfl, fun _ mem => .inl (kept mem), fun numbered =>
    ⟨fun _ mem => numbered.given _ (kept mem), fun _ mem _ mem' => numbered.apart _ (kept mem) _ (kept mem')⟩⟩

/-- Compiling candidates takes new numbers only. -/
lemma advances_requestActions (pool : Pool) (c : Catalogue) (h : Holder) (kind : OutputKind) (id : Nat) :
    pool.Advances (pool.requestActions c h kind id).1 := by
  have candidate (id : Nat) : pool.Advances (pool.requestCandidate c h kind id).1 := by
    unfold requestCandidate
    split
    · exact .refl
    · split
      · exact .refl
      · exact advances_keep _ _
  unfold requestActions
  split
  · exact .refl
  · exact .refl
  · exact candidate _

/-- A request takes new numbers only. -/
lemma advances_request (pool : Pool) (c : Catalogue) (h : Holder) (kind : OutputKind) (id : Nat) :
    pool.Advances (pool.request c h kind id).1 := by
  have actions := advances_requestActions pool c h kind id
  have asked := asked c pool h kind id
  generalize pool.request c h kind id = answer at asked ⊢
  cases asked with
  | kept found => exact .refl
  | noLine missing failed => exact .refl
  | noActions missing compiled failed =>
    rw [failed] at actions
    exact actions
  | new missing compiled found =>
    rw [found] at actions
    exact actions.trans (advances_keep _ _)

/-- What was asked for is kept with its number. -/
lemma mem_plans_request {compiled : Compiled} (given : (pool.request c h kind id).2 = .ok compiled) :
    (⟨h.shelf, kind, id⟩, compiled) ∈ (pool.request c h kind id).1.plans := by
  have kept : (pool.request c h kind id).1.plans.lookup ⟨h.shelf, kind, id⟩ = some compiled :=
    lookup_request.trans (congrArg Except.toOption given)
  obtain ⟨before, after, split, -⟩ := List.lookup_eq_some_iff.1 kept
  rw [split]
  exact List.mem_append_right _ List.mem_cons_self

/-! ## What a request reads -/

/-- Pools that keep the same on one shelf, and number what they compile alike. -/
structure AgreesOn (shelf : Shelf) (pool pool' : Pool) : Prop where
  compilations : pool.compilations = pool'.compilations
  lookup : ∀ kind id, pool.plans.lookup ⟨shelf, kind, id⟩ = pool'.plans.lookup ⟨shelf, kind, id⟩

/-- Pools that agree on a shelf still do so after one plan is kept in both. -/
lemma AgreesOn.keep (agrees : pool.AgreesOn shelf pool') (key : PlanKey) (plan : Plan) :
    (pool.keep key plan).1.AgreesOn shelf (pool'.keep key plan).1 := by
  refine ⟨congrArg (· + 1) agrees.compilations, fun kind id => ?_⟩
  rw [lookup_keep, lookup_keep, agrees.compilations, agrees.lookup kind id]

/-- The plan of candidates depends on their shelf only. -/
lemma AgreesOn.requestCandidate (agrees : pool.AgreesOn h.shelf pool') (c : Catalogue) (kind : OutputKind) (id : Nat) :
    (pool.requestCandidate c h kind id).2 = (pool'.requestCandidate c h kind id).2 ∧
      (pool.requestCandidate c h kind id).1.AgreesOn h.shelf (pool'.requestCandidate c h kind id).1 := by
  unfold Pool.requestCandidate
  rw [agrees.lookup kind id]
  split
  · exact ⟨rfl, agrees⟩
  · split
    · exact ⟨rfl, agrees⟩
    · exact ⟨rfl, agrees.keep _ _⟩

/-- The candidates of a record type depend on their shelf only. -/
lemma AgreesOn.requestActions (agrees : pool.AgreesOn h.shelf pool') (c : Catalogue) (kind : OutputKind) (id : Nat) :
    (pool.requestActions c h kind id).2 = (pool'.requestActions c h kind id).2 ∧
      (pool.requestActions c h kind id).1.AgreesOn h.shelf (pool'.requestActions c h kind id).1 := by
  unfold Pool.requestActions
  split
  · exact ⟨rfl, agrees⟩
  · exact ⟨rfl, agrees⟩
  · rename_i member candidate found
    obtain ⟨line, after⟩ := agrees.requestCandidate c kind candidate
    refine ⟨?_, after⟩
    simp only [line]

/-- What is kept on other shelves is not asked for. -/
theorem AgreesOn.request (agrees : pool.AgreesOn h.shelf pool') :
    (pool.request c h kind id).2 = (pool'.request c h kind id).2 := by
  obtain ⟨actions, after⟩ := agrees.requestActions c kind id
  unfold Pool.request
  rw [agrees.lookup kind id]
  split
  · rfl
  · split
    · rfl
    · generalize pool.requestActions c h kind id = answer at actions after ⊢
      generalize pool'.requestActions c h kind id = answer' at actions after ⊢
      obtain ⟨pool, result⟩ := answer
      obtain ⟨pool', result'⟩ := answer'
      obtain rfl : result = result' := actions
      cases result with
      | error failure => rfl
      | ok found =>
        have number : pool.compilations = pool'.compilations := after.compilations
        simp only [Pool.keep, number]

/-! ## Releasing -/

/-- Whether a shelf is used by one of some registries. -/
def Used (holders : List Holder) : Shelf → Prop
  | .shared _ => True
  | .owned store => ∃ h ∈ holders, h.store = store

/-- A key that is not filtered out finds what it found before. -/
lemma lookup_filter_key {α β : Type} [BEq α] [LawfulBEq α] {bindings : List (α × β)} (keeps : α → Bool) {key : α}
    (kept : keeps key = true) : (bindings.filter fun binding => keeps binding.1).lookup key = bindings.lookup key := by
  induction bindings with
  | nil => rfl
  | cons binding bindings ih =>
    rw [List.filter_cons]
    split
    · rw [List.lookup_cons, List.lookup_cons, ih]
    · rename_i gone
      rw [ih, List.lookup_cons, beq_eq_false_iff_ne.2]
      rintro rfl
      exact gone kept

/-- The plans of shelves in use stay when others are released. -/
lemma lookup_release {holders : List Holder} (used : Used holders key.shelf) :
    (pool.release holders).plans.lookup key = pool.plans.lookup key := by
  unfold release
  refine lookup_filter_key (fun key : PlanKey => match key.shelf with
    | .shared _ => true
    | .owned store => holders.any (·.store == store)) ?_
  unfold Used at used
  split
  · rfl
  · rename_i store owned
    rw [owned] at used
    obtain ⟨h, mem, same⟩ := used
    exact List.any_eq_true.2 ⟨h, mem, beq_iff_eq.2 same⟩

end Pool

end FeatureLines
