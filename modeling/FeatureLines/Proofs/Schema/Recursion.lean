import Mathlib.Data.List.Basic
import Mathlib.Logic.Relation
import Mathlib.Tactic.Lemma
import FeatureLines.Proofs.Schema.Walk

/-!
# Recursive schemas

A record type holds another when one of its members is of that type. Going down from a type along members, each to a type
that was not met on the way, a member may come back to a type that was: `Catalogue.Returns`. Ways are told apart by the
positions of their members, and of two ways the one that comes first in the order of declaration is the lesser list.

Main statements: `Catalogue.extract_eq_error_iff`, extraction fails for the first way that comes back and for nothing else,
and `Catalogue.extract_fails_iff`, there is such a way when a type that can be reached reaches itself.
-/

namespace FeatureLines

open Relation

/-- A member of a record type: its type, the number of that type, and the path of the member. -/
structure Edge where
  type : ValueType
  id : Nat
  member : String

/-- The failure of a member that comes back to a type that is being opened. -/
def Edge.failure (e : Edge) : SchemaError := .recursiveSchema e.type.name e.member

/-- The type of a member, with attributes or without. -/
def Role.value? : Role → Option ValueType
  | feature _ type _ => some type
  | nested type => some type
  | _ => none

def Field.edge? (field : Field) : Option Edge :=
  field.role.value?.bind fun type =>
    match type.form with
    | .record id => some ⟨type, id, field.path⟩
    | _ => none

/-- The role of a member has a scope below it, and no other role has. -/
lemma Role.asMember?_eq_none {role : Role} {scope : Scope} {m : Member} (apart : role.asMember? scope m = none) :
    role.value? = none := by
  cases role with
  | feature attributes type override => cases apart
  | nested type => cases apart
  | label => rfl
  | actions candidate => rfl
  | skipped => rfl

/-- What a member contributes: the features of the record that it holds, or the one that it is itself. -/
def Member.place (m : Member) (leaf : Option Descriptor) (ds : List Descriptor) : List Descriptor :=
  if ds.isEmpty then leaf.toList else ds.map (.below m)

namespace Catalogue

def edgeAt? (c : Catalogue) (id position : Nat) : Option Edge := (c.fields id)[position]?.bind Field.edge?

/-- A member of one type is of the other. -/
def Holds (c : Catalogue) (id id' : Nat) : Prop := ∃ position e, c.edgeAt? id position = some e ∧ e.id = id'

/-- Below some types, a way from a type comes back by its last member to the type or to one of those above. -/
inductive Returns (c : Catalogue) : List Nat → Nat → List Nat → Edge → Prop
  | back {above : List Nat} {id position : Nat} {e : Edge} (edge : c.edgeAt? id position = some e)
      (met : e.id ∈ id :: above) : Returns c above id [position] e
  | onward {above : List Nat} {id position : Nat} {e e' : Edge} {way : List Nat} (edge : c.edgeAt? id position = some e)
      (new : e.id ∉ id :: above) (rest : Returns c (id :: above) e.id way e') : Returns c above id (position :: way) e'

/-- The first way that comes back, in the order of declaration. -/
structure FirstReturn (c : Catalogue) (id : Nat) (way : List Nat) (e : Edge) : Prop where
  returns : c.Returns [] id way e
  least : ∀ way' e', c.Returns [] id way' e' → ¬way' < way

variable {c : Catalogue}

/-! ## Ways and cycles -/

/-- A way has one last member. -/
lemma Returns.unique {above : List Nat} {id : Nat} {way : List Nat} {e e' : Edge} (returns : c.Returns above id way e)
    (returns' : c.Returns above id way e') : e = e' := by
  induction returns generalizing e' with
  | back edge met =>
    cases returns' with
    | back edge' met' => exact Option.some.inj (edge.symm.trans edge')
    | onward edge' new' rest' => cases rest'
  | onward edge new rest ih =>
    cases returns' with
    | back edge' met' => cases rest
    | onward edge' new' rest' =>
      cases edge.symm.trans edge'
      exact ih rest'

/-- A type that a way comes back to is reached, and reaches itself. -/
lemma Returns.cycle {above : List Nat} {id : Nat} {way : List Nat} {e : Edge} (returns : c.Returns above id way e)
    (reach : ∀ a ∈ id :: above, ReflTransGen c.Holds a id) :
    ReflTransGen c.Holds id e.id ∧ TransGen c.Holds e.id e.id := by
  induction returns with
  | @back above id position e edge met =>
    have last : c.Holds id e.id := ⟨position, e, edge, rfl⟩
    exact ⟨.single last, .tail' (reach e.id met) last⟩
  | @onward above id position e e' way edge new rest ih =>
    have step : c.Holds id e.id := ⟨position, e, edge, rfl⟩
    obtain ⟨reached, cycle⟩ := ih fun a mem => by
      rcases List.mem_cons.1 mem with rfl | mem
      · exact .refl
      · exact (reach a mem).tail step
    exact ⟨reached.head step, cycle⟩

/-- Labels, candidates and skipped fields lead nowhere. -/
lemma edge?_of_apart {role : Role} (apart : role = .label ∨ (∃ candidate, role = .actions candidate) ∨ role = .skipped) :
    role.value? = none := by
  rcases apart with rfl | ⟨candidate, rfl⟩ | rfl <;> rfl

/-- The members of an edge's type are those of the value. -/
lemma held_of_edge? {field : Field} {e : Edge} (edge : field.edge? = some e) :
    field.role.value? = some e.type ∧ e.type.form = .record e.id ∧ e.member = field.path ∧
      c.held e.type = c.fields e.id := by
  obtain ⟨type, value, found⟩ := Option.bind_eq_some_iff.1 edge
  split at found
  · rename_i id form
    cases found
    refine ⟨value, form, rfl, ?_⟩
    rw [held, form]
  · cases found

/-- A walk ends, so the types of its members lead to no cycle. -/
lemma Walk.acc {scope : Scope} {position : Nat} {fields : List Field} {leaves : List Leaf}
    (walk : c.Walk scope position fields leaves) :
    ∀ field ∈ fields, ∀ e, field.edge? = some e → Acc (Function.swap c.Holds) e.id := by
  have value {type : ValueType} {field : Field} (own : field.role.value? = some type)
      (inner : ∀ field ∈ c.held type, ∀ e, field.edge? = some e → Acc (Function.swap c.Holds) e.id) {e : Edge}
      (edge : field.edge? = some e) : Acc (Function.swap c.Holds) e.id := by
    obtain ⟨same, -, -, members⟩ := held_of_edge? (c := c) edge
    cases own.symm.trans same
    constructor
    rintro id ⟨position, e', edge', rfl⟩
    obtain ⟨field', at', found⟩ := Option.bind_eq_some_iff.1 edge'
    rw [members] at inner
    exact inner field' (List.mem_of_getElem? at') e' found
  induction walk with
  | nil =>
    intro field mem
    cases mem
  | apart role rest ih =>
    intro field mem e edge
    rcases List.mem_cons.1 mem with rfl | mem
    · have none := edge?_of_apart role
      rw [(held_of_edge? (c := c) edge).1] at none
      cases none
    · exact ih field mem e edge
  | feature inner rest ihInner ih =>
    intro field mem e edge
    rcases List.mem_cons.1 mem with rfl | mem
    · exact value rfl ihInner edge
    · exact ih field mem e edge
  | nested inner rest ihInner ih =>
    intro field mem e edge
    rcases List.mem_cons.1 mem with rfl | mem
    · exact value rfl ihInner edge
    · exact ih field mem e edge

/-- Where extraction succeeds, no type that can be reached reaches itself. -/
lemma not_cycle_of_extract {scope : Scope} {id id' : Nat} {ds : List Descriptor} (ok : c.extract scope id = .ok ds)
    (reached : ReflTransGen c.Holds id id') : ¬TransGen c.Holds id' id' := by
  obtain ⟨leaves, walk, -⟩ := extract_eq_walk ok
  have root : Acc (Function.swap c.Holds) id := by
    constructor
    rintro id' ⟨position, e, edge, rfl⟩
    obtain ⟨field, at', found⟩ := Option.bind_eq_some_iff.1 edge
    exact walk.acc field (List.mem_of_getElem? at') e found
  have below : Acc (Function.swap c.Holds) id' := by
    induction reached with
    | refl => exact root
    | tail _ step ih => exact ih.inv step
  intro cycle
  have acc := below.transGen
  clear below reached
  induction acc with
  | intro id' _ ih => exact ih id' (TransGen.swap _ _ cycle) cycle

/-! ## What extraction finds at a field -/

/-- The record types that may still be opened are those that are declared and not on the stack. -/
structure Closes (c : Catalogue) (stack closed : List Nat) : Prop where
  nodup : closed.Nodup
  mem_iff : ∀ id, id ∈ closed ↔ id < c.length ∧ id ∉ stack

/-- A type that is entered may not be opened again inside of itself. -/
lemma Closes.erase {stack closed : List Nat} (h : c.Closes stack closed) (id : Nat) :
    c.Closes (id :: stack) (closed.erase id) := by
  refine ⟨h.nodup.erase id, fun other => ?_⟩
  rw [h.nodup.mem_erase_iff, h.mem_iff, List.mem_cons, not_or]
  exact and_left_comm

/-- At the start all types but the root may be opened. -/
lemma closes_root (c : Catalogue) (id : Nat) : c.Closes [id] ((List.range c.length).erase id) := by
  have all : c.Closes [] (List.range c.length) := ⟨List.nodup_range, fun id => by simp⟩
  exact all.erase id

/-- The features of the record that a member holds. -/
def extractHeld (c : Catalogue) (closed : List Nat) (scope : Scope) (e : Edge) : Except SchemaError (List Descriptor) :=
  if e.id ∈ closed then c.extractFields (closed.erase e.id) scope 0 (c.fields e.id)
  else if e.id < c.length then .error e.failure
  else .ok []

def extractField (c : Catalogue) (closed : List Nat) (scope : Scope) (position : Nat) (field : Field) :
    Except SchemaError (List Descriptor) :=
  match field.role.asMember? scope ⟨position, field.path, field.optional⟩ with
  | none => .ok []
  | some (_, inner, leaf) =>
    let held : Except SchemaError (List Descriptor) :=
      match field.edge? with
      | none => .ok []
      | some e => c.extractHeld closed inner e
    held.map (Member.place ⟨position, field.path, field.optional⟩ leaf)

/-- Fields are extracted in order, up to the first failure. -/
lemma extractFields_cons (c : Catalogue) (closed : List Nat) (scope : Scope) (position : Nat) (field : Field)
    (rest : List Field) :
    c.extractFields closed scope position (field :: rest) =
      (c.extractField closed scope position field).bind fun found =>
        (c.extractFields closed scope (position + 1) rest).map (found ++ ·) := by
  obtain ⟨path, isOptional, role⟩ := field
  rw [extractFields]
  unfold extractField
  cases role with
  | feature attributes type override =>
    obtain ⟨name, form⟩ := type
    cases form <;> rfl
  | nested type =>
    obtain ⟨name, form⟩ := type
    cases form <;> rfl
  | label => rfl
  | actions candidate => rfl
  | skipped => rfl

/-! ## The first way that comes back -/

/-- A listing fails for the first of some ways, and if there are none it succeeds. -/
def Least {α : Type} (ways : List Nat → Edge → Prop) : Except SchemaError α → Prop
  | .ok _ => ∀ way e, ¬ways way e
  | .error failure => ∃ way e, ways way e ∧ failure = e.failure ∧ ∀ way' e', ways way' e' → ¬way' < way

/-- What is made of a result has no say in the first way. -/
lemma Least.map {α β : Type} {ways : List Nat → Edge → Prop} {result : Except SchemaError α} (f : α → β)
    (least : Least ways result) : Least ways (result.map f) := by
  cases result with
  | ok a => exact least
  | error failure => exact least

lemma Least.congr {α : Type} {ways ways' : List Nat → Edge → Prop} {result : Except SchemaError α}
    (same : ∀ way e, ways' way e ↔ ways way e) (least : Least ways result) : Least ways' result := by
  have : ways' = ways := funext fun way => funext fun e => propext (same way e)
  rwa [this]

/-- The ways whose first member does not come before a position. -/
def ReturnsFrom (c : Catalogue) (above : List Nat) (id position : Nat) (way : List Nat) (e : Edge) : Prop :=
  ∃ first rest, way = first :: rest ∧ position ≤ first ∧ c.Returns above id way e

/-- All ways begin at the first field or later. -/
lemma returnsFrom_zero {above : List Nat} {id : Nat} {way : List Nat} {e : Edge} :
    c.ReturnsFrom above id 0 way e ↔ c.Returns above id way e := by
  constructor
  · rintro ⟨_, _, _, _, returns⟩
    exact returns
  · intro returns
    cases returns with
    | back edge met => exact ⟨_, _, rfl, Nat.zero_le _, .back edge met⟩
    | onward edge new rest => exact ⟨_, _, rfl, Nat.zero_le _, .onward edge new rest⟩

/-- The first of the ways from a position on goes by the member there, if one of them does. -/
lemma Least.cons {above : List Nat} {id position : Nat} {here : Except SchemaError (List Descriptor)}
    {later : Except SchemaError (List Descriptor)}
    (first : Least (fun way e => c.Returns above id (position :: way) e) here)
    (others : Least (c.ReturnsFrom above id (position + 1)) later) :
    Least (c.ReturnsFrom above id position) (here.bind fun found => later.map (found ++ ·)) := by
  cases here with
  | error failure =>
    obtain ⟨way, e, returns, rfl, least⟩ := first
    refine ⟨position :: way, e, ⟨position, way, rfl, le_rfl, returns⟩, rfl, ?_⟩
    rintro _ e' ⟨first, rest, rfl, after, returns'⟩ before
    rcases List.cons_lt_cons_iff.1 before with sooner | ⟨rfl, sooner⟩
    · exact absurd sooner (Nat.not_lt.2 after)
    · exact least rest e' returns' sooner
  | ok found =>
    -- no way goes by the member here, so that the first one is the first of the others
    refine Least.congr (fun way e => ?_) (others.map (found ++ ·))
    constructor
    · rintro ⟨p, rest, rfl, after, returns⟩
      rcases Nat.eq_or_lt_of_le after with rfl | after
      · exact absurd returns (first rest e)
      · exact ⟨p, rest, rfl, after, returns⟩
    · rintro ⟨p, rest, rfl, after, returns⟩
      exact ⟨p, rest, rfl, Nat.le_of_succ_le after, returns⟩

/-- A way begins with an edge. -/
lemma Returns.edge {above : List Nat} {id position : Nat} {way : List Nat} {e : Edge}
    (returns : c.Returns above id (position :: way) e) : ∃ edge, c.edgeAt? id position = some edge := by
  cases returns with
  | back edge met => exact ⟨e, edge⟩
  | onward edge new rest => exact ⟨_, edge⟩

/-- Ways by a member of a type that is not open go on from there. -/
lemma returns_cons_iff {above : List Nat} {id position : Nat} {edge : Edge} (at' : c.edgeAt? id position = some edge)
    (new : edge.id ∉ id :: above) (way : List Nat) (e : Edge) :
    c.Returns above id (position :: way) e ↔ c.Returns (id :: above) edge.id way e := by
  constructor
  · intro returns
    cases returns with
    | back edge' met =>
      cases at'.symm.trans edge'
      exact absurd met new
    | onward edge' new' rest =>
      cases at'.symm.trans edge'
      exact rest
  · exact .onward at' new

/-- From a type without fields no way leads back. -/
lemma not_returns_of_fields_nil {above : List Nat} {id : Nat} {way : List Nat} {e : Edge} (fields : c.fields id = []) :
    ¬c.Returns above id way e := by
  intro returns
  cases returns with
  | back edge met =>
    rw [edgeAt?, fields] at edge
    cases edge
  | onward edge new rest =>
    rw [edgeAt?, fields] at edge
    cases edge

/-- Listing the fields of a type from a position on fails for the first way that comes back. -/
lemma least_extractFields (closed : List Nat) (scope : Scope) (position : Nat) (fields : List Field) {above : List Nat}
    {id : Nat} (closes : c.Closes (id :: above) closed) (declared : ∀ a ∈ id :: above, a < c.length)
    (members : (c.fields id).drop position = fields) :
    Least (c.ReturnsFrom above id position) (c.extractFields closed scope position fields) := by
  induction closed, scope, position, fields using extractFields.induct c generalizing above id with
  | case1 closed scope position =>
    rw [extractFields]
    rintro _ e ⟨first, rest, rfl, after, returns⟩
    obtain ⟨edge, found⟩ := returns.edge
    rw [edgeAt?, List.getElem?_eq_none (by have := List.drop_eq_nil_iff.1 members; omega)] at found
    cases found
  | case2 closed scope position field rest ihHeld ihRest =>
    have here : (c.fields id)[position]? = some field := by
      rw [← List.head?_drop, members]
      rfl
    have edgeHere : c.edgeAt? id position = field.edge? := by
      rw [edgeAt?, here]
      rfl
    have later := ihRest closes declared (by rw [← List.tail_drop, members]; rfl)
    rw [extractFields_cons]
    refine Least.cons ?_ later
    unfold extractField
    cases edge : field.edge? with
    | none =>
      have never : ∀ way e, ¬c.Returns above id (position :: way) e := by
        intro way e returns
        obtain ⟨edge', found⟩ := returns.edge
        rw [edgeHere, edge] at found
        cases found
      split
      · exact never
      · exact never
    | some e =>
      rw [edge] at edgeHere
      have heldHere (inner : Scope) :
          Least (fun way e' => c.Returns above id (position :: way) e') (c.extractHeld closed inner e) := by
        unfold extractHeld
        split
        · rename_i mem
          obtain ⟨known, new⟩ := (closes.mem_iff e.id).1 mem
          have held := ihHeld inner e.id mem (closes.erase e.id) (List.forall_mem_cons.2 ⟨known, declared⟩) rfl
          refine Least.congr (fun way e' => ?_) held
          rw [returns_cons_iff edgeHere new, returnsFrom_zero]
        · rename_i closedOff
          split
          · rename_i known
            have met : e.id ∈ id :: above := by
              by_contra new
              exact closedOff ((closes.mem_iff e.id).2 ⟨known, new⟩)
            refine ⟨[], e, .back edgeHere met, rfl, fun way' _ _ before => ?_⟩
            cases before
          · rename_i far
            intro way e' returns
            have new : e.id ∉ id :: above := fun met => far (declared e.id met)
            rw [returns_cons_iff edgeHere new] at returns
            exact not_returns_of_fields_nil (fields_of_length_le (Nat.le_of_not_lt far)) returns
      split
      · rename_i apart
        have none := Role.asMember?_eq_none apart
        rw [(held_of_edge? (c := c) edge).1] at none
        cases none
      · exact (heldHere _).map _

/-- Extraction fails for the first way that comes back to a type that is being opened, with the type and the member that
leads to it, and for nothing else. -/
theorem extract_eq_error_iff {scope : Scope} {id : Nat} {failure : SchemaError} :
    c.extract scope id = .error failure ↔ ∃ way e, c.FirstReturn id way e ∧ failure = e.failure := by
  have least : Least (c.Returns [] id) (c.extract scope id) := by
    by_cases known : id < c.length
    · have found := least_extractFields _ scope 0 (c.fields id) (closes_root c id) (by simpa using known) rfl
      exact Least.congr (fun way e => returnsFrom_zero.symm) found
    · have fields := fields_of_length_le (Nat.le_of_not_lt known)
      have ok : c.extract scope id = .ok [] := by
        rw [extract, fields, extractFields]
      rw [ok]
      exact fun way e => not_returns_of_fields_nil fields
  constructor
  · intro failed
    rw [failed] at least
    obtain ⟨way, e, returns, rfl, first⟩ := least
    exact ⟨way, e, ⟨returns, first⟩, rfl⟩
  · rintro ⟨way, e, ⟨returns, first⟩, rfl⟩
    cases found : c.extract scope id with
    | ok ds =>
      rw [found] at least
      exact absurd returns (least way e)
    | error failure =>
      rw [found] at least
      obtain ⟨way', e', returns', rfl, first'⟩ := least
      have same : way = way' := List.le_antisymm (List.not_lt.1 (first _ _ returns')) (List.not_lt.1 (first' _ _ returns))
      subst same
      rw [returns.unique returns']

/-- Extraction fails when a type that can be reached from the root reaches itself. -/
theorem extract_fails_iff {scope : Scope} {id : Nat} :
    (∃ failure, c.extract scope id = .error failure) ↔
      ∃ id', ReflTransGen c.Holds id id' ∧ TransGen c.Holds id' id' := by
  constructor
  · rintro ⟨failure, failed⟩
    obtain ⟨way, e, first, -⟩ := extract_eq_error_iff.1 failed
    exact ⟨e.id, first.returns.cycle (by simp [ReflTransGen.refl])⟩
  · rintro ⟨id', reached, cycle⟩
    cases found : c.extract scope id with
    | ok ds => exact absurd cycle (not_cycle_of_extract found reached)
    | error failure => exact ⟨failure, rfl⟩

end Catalogue

end FeatureLines
