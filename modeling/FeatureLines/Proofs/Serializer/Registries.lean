import FeatureLines.Proofs.Serializer.Pool
import FeatureLines.Serializer.Registries

/-!
# Registries and their plans

A program may make, clone, change and drop registries in any order. At each time a registry gets what compiling gives for
what is registered in it, because only such plans are kept for it: plans of stateless registries on the shelf of their
content, those of others in a store that only clones with the same entries have (`Registries.Coherent`). That two registries
get one plan is told by the number of its compilation, which no other plan is ever given (`Registries.eq_of_serial`).
-/

namespace FeatureLines

namespace Registries

/-- A registry that is there. -/
def Holds (s : Registries) (h : Holder) : Prop := some h ∈ s.holders

/-- Which registries are served from a shelf: those of the content, or those that have the store. -/
def serves (known : Conventions) (s : Registries) : Service
  | .shared content, r => r.Within known ∧ r.contentKey? = some content
  | .owned store, r => ∃ h, s.Holds h ∧ h.store = store ∧ h.registry = r

/-- What is kept was compiled for the entries of the registries it is kept for. -/
structure Coherent (c : Catalogue) (known : Conventions) (s : Registries) : Prop where
  within : ∀ h, s.Holds h → h.registry.Within known
  issued : ∀ h, s.Holds h → h.store < s.pool.stores
  /-- Registries that share a store have the same entries. -/
  clones : ∀ h h', s.Holds h → s.Holds h' → h.store = h'.store → h.registry = h'.registry
  owned : ∀ key compiled store, (key, compiled) ∈ s.pool.plans → key.shelf = .owned store → store < s.pool.stores
  sound : s.pool.Sound c (s.serves known)

variable {c : Catalogue} {known : Conventions} {s s' : Registries} {h : Holder} {kind : OutputKind} {id : Nat}

/-- A registry that is found is held. -/
lemma holds_of_holder? {i : Nat} (found : s.holder? i = some h) : s.Holds h := by
  unfold holder? at found
  exact List.mem_of_getElem? (Option.join_eq_some_iff.1 found)

namespace Coherent

/-- Nothing is out of order at the start. -/
lemma empty : (empty : Registries).Coherent c known where
  within _ held := nomatch held
  issued _ held := nomatch held
  clones _ _ held := nomatch held
  owned _ _ _ mem := nomatch mem
  sound _ _ mem := nomatch mem

/-- Registries of one shelf give the same marshallers. -/
lemma uniform (faithful : known.Faithful) (coherent : s.Coherent c known) : (s.serves known).Uniform := by
  intro shelf r r' served served' type
  cases shelf with
  | shared content =>
    obtain ⟨within, key⟩ := served
    obtain ⟨within', key'⟩ := served'
    exact Registry.get?_of_contentKey? faithful within within' key key' type
  | owned store =>
    obtain ⟨h, held, at_, rfl⟩ := served
    obtain ⟨h', held', at', rfl⟩ := served'
    rw [coherent.clones h h' held held' (at_.trans at'.symm)]

/-- A registry is served from its shelf. -/
lemma served (coherent : s.Coherent c known) (held : s.Holds h) : s.serves known h.shelf h.registry := by
  unfold Holder.shelf
  split
  · rename_i content key
    exact ⟨coherent.within h held, key⟩
  · exact ⟨h, held, rfl, rfl⟩

/-- Registries may come and go, with what is kept for them, and one may come with a store of its own. -/
lemma change (coherent : s.Coherent c known) {r : Registry} (within : r.Within known)
    (plans : ∀ kept ∈ s'.pool.plans, kept ∈ s.pool.plans) (stores : s.pool.stores ≤ s'.pool.stores)
    (holders : ∀ h, s'.Holds h → s.Holds h ∨ h = ⟨r, s.pool.stores⟩ ∧ s.pool.stores < s'.pool.stores) :
    s'.Coherent c known where
  within h held := by
    rcases holders h held with old | ⟨rfl, -⟩
    · exact coherent.within h old
    · exact within
  issued h held := by
    rcases holders h held with old | ⟨rfl, more⟩
    · exact (coherent.issued h old).trans_le stores
    · exact more
  clones h h' held held' same := by
    rcases holders h held with old | ⟨rfl, -⟩ <;> rcases holders h' held' with old' | ⟨rfl, -⟩
    · exact coherent.clones h h' old old' same
    · exact absurd same (coherent.issued h old).ne
    · exact absurd same.symm (coherent.issued h' old').ne
    · rfl
  owned key compiled store mem shelf := (coherent.owned key compiled store (plans _ mem) shelf).trans_le stores
  sound key compiled mem r served := by
    have old := plans _ mem
    refine coherent.sound key compiled old r ?_
    generalize shelf : key.shelf = place at served ⊢
    cases place with
    | shared content => exact served
    | owned store =>
      obtain ⟨h, held, at_, rfl⟩ := served
      rcases holders h held with before | ⟨rfl, -⟩
      · exact ⟨h, before, at_, rfl⟩
      -- nothing is kept yet in a store that is handed out now
      · exact absurd at_ (coherent.owned key compiled store old shelf).ne'

/-- A request gives what compiling for the registry gives, and keeps everything coherent. -/
lemma request (faithful : known.Faithful) (coherent : s.Coherent c known) (held : s.Holds h) (kind : OutputKind) (id : Nat) :
    (s.request c h kind id).2.map Compiled.plan = Plan.compile c h.registry kind id ∧
      (s.request c h kind id).1.Coherent c known := by
  obtain ⟨answer, sound, grows⟩ := Pool.request_spec (coherent.uniform faithful) coherent.sound
    (coherent.served held) kind id
  refine ⟨answer, coherent.within, fun h' held' => ?_, coherent.clones, fun key compiled store mem shelf => ?_, sound⟩
  · exact (coherent.issued h' held').trans_eq grows.stores.symm
  · refine Nat.lt_of_lt_of_eq ?_ grows.stores.symm
    rcases grows.added key compiled mem with old | here
    · exact coherent.owned key compiled store old shelf
    · rw [shelf] at here
      unfold Holder.shelf at here
      split at here
      · cases here
      · cases here
        exact coherent.issued h held

end Coherent

/-- The stateless marshallers that an action registers are known. -/
def Action.Within (known : Conventions) : Action → Prop
  | .register _ type handle isStateless => isStateless → known type handle
  | _ => True

/-- What a release leaves was kept before. -/
lemma settle_plans : ∀ kept ∈ s.settle.pool.plans, kept ∈ s.pool.plans := fun _ mem => (List.mem_filter.1 mem).1

/-- An action keeps a program coherent. -/
lemma Coherent.perform (faithful : known.Faithful) (coherent : s.Coherent c known) {action : Action}
    (within : action.Within known) : (s.perform c action).Coherent c known := by
  cases action with
  | create =>
    refine coherent.change .empty (fun _ mem => mem) (Nat.le_succ _) fun h held => ?_
    rcases List.mem_append.1 held with old | new
    · exact .inl old
    · exact .inr ⟨Option.some.inj (List.mem_singleton.1 new), Nat.lt_succ_self _⟩
  | clone i =>
    change (s.clone i).Coherent c known
    unfold Registries.clone
    split
    · rename_i holder found
      refine coherent.change .empty (fun _ mem => mem) le_rfl fun h held => .inl ?_
      rcases List.mem_append.1 held with old | new
      · exact old
      · cases List.mem_singleton.1 new
        exact holds_of_holder? found
    · exact coherent
  | register i type handle isStateless =>
    change (s.register i type handle isStateless).Coherent c known
    unfold Registries.register
    split
    · rename_i holder found
      have entries : (holder.registry.register type ⟨handle, s.registrations, isStateless⟩).Within known :=
        (coherent.within holder (holds_of_holder? found)).register within
      refine coherent.change entries settle_plans (Nat.le_succ _) fun h held => ?_
      rcases List.mem_or_eq_of_mem_set held with old | new
      · exact .inl old
      · exact .inr ⟨Option.some.inj new, Nat.lt_succ_self _⟩
    · exact coherent
  | request i kind id =>
    simp only [Registries.perform]
    split
    · rename_i holder found
      exact (coherent.request faithful (holds_of_holder? found) kind id).2
    · exact coherent
  | drop i =>
    refine coherent.change .empty settle_plans le_rfl fun h held => .inl ?_
    rcases List.mem_or_eq_of_mem_set held with old | new
    · exact old
    · cases new

/-- Any actions keep a program coherent. -/
theorem Coherent.run (faithful : known.Faithful) (coherent : s.Coherent c known) {actions : List Action}
    (within : ∀ action ∈ actions, action.Within known) : (s.run c actions).Coherent c known := by
  induction actions generalizing s with
  | nil => exact coherent
  | cons action actions ih =>
    obtain ⟨first, rest⟩ := List.forall_mem_cons.1 within
    exact ih (coherent.perform faithful first) rest

/-! ## Numbers of compilations -/

/-- An action gives no number of a compilation again. -/
lemma perform_advances (c : Catalogue) (s : Registries) (action : Action) :
    s.pool.Advances (s.perform c action).pool := by
  have held (r : Registry) : s.pool.Advances (s.pool.hold r).1 := ⟨le_rfl, fun _ mem => .inl mem, fun numbered =>
    ⟨numbered.given, numbered.apart⟩⟩
  cases action with
  | create => exact held .empty
  | clone i =>
    change s.pool.Advances (s.clone i).pool
    unfold Registries.clone
    split <;> exact .refl
  | register i type handle isStateless =>
    change s.pool.Advances (s.register i type handle isStateless).pool
    unfold Registries.register
    split
    · rename_i holder found
      have stored := held (holder.registry.register type ⟨handle, s.registrations, isStateless⟩)
      exact stored.trans (Pool.advances_release _)
    · exact .refl
  | request i kind id =>
    simp only [Registries.perform]
    split
    · exact s.pool.advances_request c _ kind id
    · exact .refl
  | drop i => exact Pool.advances_release _

/-- No number of a compilation is given again, whatever a program does. -/
lemma run_advances (c : Catalogue) (s : Registries) (actions : List Action) : s.pool.Advances (s.run c actions).pool := by
  induction actions generalizing s with
  | nil => exact .refl
  | cons action actions ih => exact (perform_advances c s action).trans (ih _)

/-- Two requests, with anything in between, that are answered with one number are requests for one plan. -/
lemma eq_of_serial (numbered : s.pool.Numbered) {compiled compiled' : Compiled} {later : List Action}
    {kind' : OutputKind} {id' : Nat} {h' : Holder} (given : (s.request c h kind id).2 = .ok compiled)
    (given' : (((s.request c h kind id).1.run c later).request c h' kind' id').2 = .ok compiled')
    (same : compiled'.serial = compiled.serial) :
    h'.shelf = h.shelf ∧ kind' = kind ∧ id' = id ∧ compiled' = compiled := by
  have first := s.pool.advances_request c h kind id
  have rest := (run_advances c (s.request c h kind id).1 later).trans
    (((s.request c h kind id).1.run c later).pool.advances_request c h' kind' id')
  have kept := rest.eq_of_serial (first.numbered numbered) (Pool.mem_plans_request given) (Pool.mem_plans_request given') same
  obtain ⟨key, compilation⟩ := Prod.mk.inj kept
  obtain ⟨shelf, kinds, types⟩ := PlanKey.mk.inj key
  exact ⟨shelf, kinds, types, compilation⟩

/-! ## One registry among others -/

/-- Replacing a registry concerns no other one. -/
lemma holder?_set (pool : Pool) {holders : List (Option Holder)} {n i j : Nat} (other : i ≠ j) (new : Option Holder) :
    (⟨pool, holders.set i new, n⟩ : Registries).holder? j = (⟨pool, holders, n⟩ : Registries).holder? j :=
  congrArg Option.join (List.getElem?_set_ne other)

/-- Registering in one registry leaves what is kept for another. -/
lemma register_agreesOn {i j : Nat} (other : i ≠ j) (held : s.holder? j = some h) (type : ValueType) (handle : Handle)
    (isStateless : Bool) : (s.register i type handle isStateless).holder? j = some h ∧
      s.pool.AgreesOn h.shelf (s.register i type handle isStateless).pool := by
  unfold Registries.register
  split
  · rename_i holder found
    have there := (holder?_set s.pool (n := s.registrations) other
      (some ⟨holder.registry.register type ⟨handle, s.registrations, isStateless⟩, s.pool.stores⟩)).trans held
    -- the other registry is still there, so what is kept for it is not released
    refine ⟨there, rfl, fun kind id => (Pool.lookup_release ?_).symm⟩
    change Pool.Used _ h.shelf
    unfold Holder.shelf
    split
    · trivial
    · exact ⟨h, List.mem_filterMap.2 ⟨some h, holds_of_holder? there, rfl⟩, rfl⟩
  · exact ⟨held, rfl, fun _ _ => rfl⟩

/-- What is kept for a content stays. -/
lemma lookup_perform (faithful : known.Faithful) (coherent : s.Coherent c known) (action : Action) {key : PlanKey}
    {content : List (String × String)} (shared : key.shelf = .shared content) {compiled : Compiled}
    (kept : s.pool.plans.lookup key = some compiled) : (s.perform c action).pool.plans.lookup key = some compiled := by
  have used (holders : List Holder) : Pool.Used holders key.shelf := by
    rw [shared]
    trivial
  cases action with
  | create => exact kept
  | clone i =>
    change (s.clone i).pool.plans.lookup key = some compiled
    unfold Registries.clone
    split <;> exact kept
  | register i type handle isStateless =>
    change (s.register i type handle isStateless).pool.plans.lookup key = some compiled
    unfold Registries.register
    split
    · exact (Pool.lookup_release (used _)).trans kept
    · exact kept
  | request i kind id =>
    simp only [Registries.perform]
    split
    · rename_i holder found
      exact (Pool.request_spec (coherent.uniform faithful) coherent.sound
        (coherent.served (holds_of_holder? found)) kind id).2.grows.kept key compiled kept
    · exact kept
  | drop i => exact (Pool.lookup_release (used _)).trans kept

/-- A plan on a shared shelf is kept for good. -/
lemma lookup_run (faithful : known.Faithful) (coherent : s.Coherent c known) {actions : List Action}
    (within : ∀ action ∈ actions, action.Within known) {key : PlanKey} {content : List (String × String)}
    (shared : key.shelf = .shared content) {compiled : Compiled} (kept : s.pool.plans.lookup key = some compiled) :
    (s.run c actions).pool.plans.lookup key = some compiled := by
  induction actions generalizing s with
  | nil => exact kept
  | cons action actions ih =>
    obtain ⟨first, rest⟩ := List.forall_mem_cons.1 within
    exact ih (coherent.perform faithful first) rest (lookup_perform faithful coherent action shared kept)

/-- What was given to a stateless registry is what any registry with the same entries is given from then on. -/
lemma request_of_sameStateless (faithful : known.Faithful) (coherent : s.Coherent c known) (held : s.Holds h)
    {compiled : Compiled} (given : (s.request c h kind id).2 = .ok compiled) {later : List Action}
    (within : ∀ action ∈ later, action.Within known) {h' : Holder}
    (held' : ((s.request c h kind id).1.run c later).Holds h') (same : h.registry.SameStateless h'.registry) :
    (((s.request c h kind id).1.run c later).request c h' kind id).2 = .ok compiled := by
  have after := (coherent.request faithful held kind id).2
  have last := after.run faithful within
  obtain ⟨content, key, key'⟩ :=
    Registry.contentKey?_of_sameStateless faithful (coherent.within h held) (last.within h' held') same
  have shelf : h.shelf = .shared content := by rw [Holder.shelf, key]
  have shelf' : h'.shelf = .shared content := by rw [Holder.shelf, key']
  have kept : (s.request c h kind id).1.pool.plans.lookup ⟨h.shelf, kind, id⟩ = some compiled :=
    Pool.lookup_request.trans (congrArg Except.toOption given)
  have found : ((s.request c h kind id).1.run c later).pool.plans.lookup ⟨h.shelf, kind, id⟩ = some compiled :=
    lookup_run faithful after within shelf kept
  rw [shelf, ← shelf'] at found
  change (Pool.request _ c h' kind id).2 = .ok compiled
  unfold Pool.request
  rw [found]

/-- Whatever a program does with its registries, each gets what compiling gives for its entries. Registries with the same
stateless entries get one plan, registering in one changes nothing for the others, and what does not compile is not kept,
so that it is compiled again. What does compile is kept, and the number of its compilation is given with no other plan. -/
theorem run_serves (c : Catalogue) {known : Conventions} (faithful : known.Faithful) {actions : List Action}
    (within : ∀ action ∈ actions, action.Within known) :
    let s := empty.run c actions
    (∀ i h kind id, s.holder? i = some h →
      (s.request c h kind id).2.map Compiled.plan = Plan.compile c h.registry kind id) ∧
    (∀ i h kind id compiled later j h', s.holder? i = some h → (s.request c h kind id).2 = .ok compiled →
      (∀ action ∈ later, action.Within known) → ((s.request c h kind id).1.run c later).holder? j = some h' →
      h.registry.SameStateless h'.registry →
        (((s.request c h kind id).1.run c later).request c h' kind id).2 = .ok compiled) ∧
    (∀ i j h type handle isStateless, i ≠ j → s.holder? j = some h →
      (s.register i type handle isStateless).holder? j = some h ∧
        ∀ kind id, ((s.register i type handle isStateless).request c h kind id).2 = (s.request c h kind id).2) ∧
    (∀ i h kind id failure, s.holder? i = some h → (s.request c h kind id).2 = .error failure →
      (s.request c h kind id).1.pool.plans.lookup ⟨h.shelf, kind, id⟩ = none ∧
        ((s.request c h kind id).1.request c h kind id).2 = .error failure) ∧
    (∀ h kind id compiled, (s.request c h kind id).2 = .ok compiled →
      (s.request c h kind id).1.pool.plans.lookup ⟨h.shelf, kind, id⟩ = some compiled) ∧
    ∀ h kind id compiled later h' kind' id' compiled', (s.request c h kind id).2 = .ok compiled →
      (((s.request c h kind id).1.run c later).request c h' kind' id').2 = .ok compiled' →
      compiled'.serial = compiled.serial → h'.shelf = h.shelf ∧ kind' = kind ∧ id' = id ∧ compiled' = compiled := by
  intro s
  have coherent : s.Coherent c known := Coherent.empty.run faithful within
  have numbered : s.pool.Numbered := (run_advances c .empty actions).numbered Pool.numbered_empty
  refine ⟨?_, ?_, ?_, ?_, ?_, ?_⟩
  · intro i h kind id held
    exact (coherent.request faithful (holds_of_holder? held) kind id).1
  · intro i h kind id compiled later j h' held given within' held' same
    exact request_of_sameStateless faithful coherent (holds_of_holder? held) given within' (holds_of_holder? held') same
  · intro i j h type handle isStateless other held
    obtain ⟨there, agrees⟩ := register_agreesOn other held type handle isStateless
    exact ⟨there, fun kind id => agrees.request.symm⟩
  · intro i h kind id failure held failed
    obtain ⟨compiles, after⟩ := coherent.request faithful (holds_of_holder? held) kind id
    refine ⟨Pool.lookup_request.trans (congrArg Except.toOption failed), ?_⟩
    have again := (after.request faithful (holds_of_holder? held) kind id).1
    rw [← compiles, failed] at again
    exact Except.map_eq_error.1 again
  · exact fun h kind id compiled given => Pool.lookup_request.trans (congrArg Except.toOption given)
  · exact fun h kind id compiled later h' kind' id' compiled' given given' => eq_of_serial numbered given given'

/-! ## An example -/

/-- A title, and a type with two labels, which does not compile. -/
def board : Catalogue :=
  [⟨"Board", [⟨"title", false, .feature {} Shop.text none⟩]⟩,
    ⟨"Twins", [⟨"first", false, .label⟩, ⟨"second", false, .label⟩]⟩]

/-- A marshaller for numbers. -/
def counter : Handle := ⟨"Counter", some Shop.number, fun _ _ _ => .weighted "count" (.one _) .done⟩

/-- Texts are marked, and numbers counted. -/
def boardMarshallers : Conventions := fun type handle =>
  type = Shop.text ∧ handle = Shop.marker ∨ type = Shop.number ∧ handle = counter

/-- Stateless marshallers of one name are the same. -/
lemma boardMarshallers_faithful : boardMarshallers.Faithful := by
  constructor
  · rintro type type' handle handle' (⟨rfl, -⟩ | ⟨rfl, -⟩) (⟨rfl, -⟩ | ⟨rfl, -⟩) same
    · rfl
    · exact absurd same (by decide)
    · exact absurd same (by decide)
    · rfl
  · rintro type handle handle' (⟨rfl, rfl⟩ | ⟨rfl, rfl⟩) (⟨same, rfl⟩ | ⟨same, rfl⟩) -
    · rfl
    · exact absurd same (by decide)
    · exact absurd same (by decide)
    · rfl

/-- Two registries with the same marshallers, registered in different orders; the first one is cloned in between. -/
def boardActions : List Action :=
  [.create, .create, .register 0 Shop.text Shop.marker true, .clone 0, .register 0 Shop.number counter true,
    .register 1 Shop.number counter true, .register 1 Shop.text Shop.marker true]

/-- All registrations of the run keep to the convention. -/
lemma boardActions_within : ∀ action ∈ boardActions, action.Within boardMarshallers := by
  have text : boardMarshallers Shop.text Shop.marker := .inl ⟨rfl, rfl⟩
  have number : boardMarshallers Shop.number counter := .inr ⟨rfl, rfl⟩
  simp [boardActions, Action.Within, text, number]

def textFirst : Holder := ⟨⟨[(Shop.text, ⟨Shop.marker, 0, true⟩), (Shop.number, ⟨counter, 1, true⟩)]⟩, 3⟩
def numberFirst : Holder := ⟨⟨[(Shop.number, ⟨counter, 2, true⟩), (Shop.text, ⟨Shop.marker, 3, true⟩)]⟩, 5⟩

/-- In whichever order they are registered, the marshallers are the same. -/
lemma sameStateless_board : textFirst.registry.SameStateless numberFirst.registry := by
  constructor
  · intro type
    by_cases isText : type = Shop.text
    · rw [isText]
      rfl
    · by_cases isNumber : type = Shop.number
      · rw [isNumber]
        rfl
      · simp [textFirst, numberFirst, Registry.entry?, List.lookup_cons, beq_eq_false_iff_ne.2 isText,
          beq_eq_false_iff_ne.2 isNumber]
  · intro type entry found
    obtain mem | mem | mem := List.mem_cons.1 (Registry.mem_of_entry? found) |>.imp_right List.mem_cons.1
    · cases mem
      rfl
    · cases mem
      rfl
    · cases mem

/-- The title is marked. -/
def boardLine : LinePlan :=
  ⟨"Board", [⟨.make none none, false,
    [⟨.ofFeature ⟨0, "title", false⟩ {} .root Shop.text none, Shop.marker, .registered⟩]⟩], none⟩

/-- The first type of the board compiles, in either kind. -/
lemma compile_title (kind : OutputKind) : Plan.compile board textFirst.registry kind 0 = .ok ⟨kind, boardLine, none⟩ := by
  have features : board.extract .root 0 = .ok [.ofFeature ⟨0, "title", false⟩ {} .root Shop.text none] := by
    simp [Catalogue.extract, Catalogue.extractFields, Catalogue.fields, board, Role.asMember?, Shop.text, Except.map,
      Except.bind, Scope.enter, Scope.root]
  have groups : groupFeatures "Board" [.ofFeature ⟨0, "title", false⟩ {} .root Shop.text none] =
      .ok [⟨⟨none, none, false⟩, [.ofFeature ⟨0, "title", false⟩ {} .root Shop.text none]⟩] := by
    simp [groupFeatures, Group.collect, Group.add, Descriptor.key, Group.problem?, Group.sorted, Descriptor.ofFeature,
      Descriptor.isDense, Descriptor.shape, Shop.text, Form.shape, Scope.root]
  have line : LinePlan.compile board textFirst.registry 0 = .ok boardLine :=
    Except.bind_eq_ok.2 ⟨_, features, Except.bind_eq_ok.2 ⟨_, groups, rfl⟩⟩
  exact Except.bind_eq_ok.2 ⟨_, line, rfl⟩

/-- The second type of the board does not. -/
lemma compile_twins :
    Plan.compile board textFirst.registry .native 1 = .error (.multipleLabels "Twins" ["first", "second"]) := by
  have none : board.extract .root 1 = .ok [] := by
    simp [Catalogue.extract, Catalogue.extractFields, Catalogue.fields, board, Role.asMember?, Except.map, Except.bind]
  unfold Plan.compile LinePlan.compile
  rw [none]
  rfl

/-- Both registries of the board get one plan, whatever is registered in the clone, and none for two labels. The plan of the
other kind is another one. -/
theorem run_serves_board :
    let s := empty.run board boardActions
    ∃ compiled failure, s.holder? 0 = some textFirst ∧ s.holder? 1 = some numberFirst ∧
      (s.request board textFirst .native 0).2 = .ok compiled ∧
      ((s.request board textFirst .native 0).1.request board numberFirst .native 0).2 = .ok compiled ∧
      ((s.register 2 Shop.text Shop.marker false).request board textFirst .native 0).2 = .ok compiled ∧
      (s.request board textFirst .native 1).2 = .error failure ∧
      (s.request board textFirst .native 1).1.pool.plans.lookup ⟨textFirst.shelf, .native, 1⟩ = none ∧
      (s.request board textFirst .native 0).1.pool.plans.lookup ⟨textFirst.shelf, .native, 0⟩ = some compiled ∧
      ∃ other, ((s.request board textFirst .native 0).1.request board textFirst .nativeAndText 0).2 = .ok other ∧
        other.serial ≠ compiled.serial := by
  intro s
  obtain ⟨fresh, one, apart, failing, kept, numbers⟩ := run_serves board boardMarshallers_faithful boardActions_within
  have held : s.holder? 0 = some textFirst := rfl
  have held' : s.holder? 1 = some numberFirst := rfl
  obtain ⟨compiled, given, -⟩ := Except.map_eq_ok.1 ((fresh 0 textFirst .native 0 held).trans (compile_title .native))
  have failed := Except.map_eq_error.1 ((fresh 0 textFirst .native 1 held).trans compile_twins)
  refine ⟨compiled, _, held, held', given, ?_, ?_, failed, (failing 0 textFirst .native 1 _ held failed).1,
    kept textFirst .native 0 compiled given, ?_⟩
  · exact one 0 textFirst .native 0 compiled [] 1 numberFirst held given (by simp) rfl sameStateless_board
  · exact ((apart 2 0 textFirst Shop.text Shop.marker false (by decide) held).2 .native 0).trans given
  · -- the first request is one more action of the run, so the one for the other kind is answered too
    have more : ∀ action ∈ boardActions ++ [.request 0 .native 0], action.Within boardMarshallers :=
      List.forall_mem_append.2 ⟨boardActions_within, List.forall_mem_singleton.2 trivial⟩
    obtain ⟨again, -⟩ := run_serves board boardMarshallers_faithful more
    obtain ⟨other, given', -⟩ := Except.map_eq_ok.1
      ((again 0 textFirst .nativeAndText 0 held).trans (compile_title .nativeAndText))
    refine ⟨other, given', fun same => ?_⟩
    obtain ⟨-, kind, -⟩ := numbers textFirst .native 0 compiled [] textFirst .nativeAndText 0 other given given' same
    cases kind

end Registries

end FeatureLines
