import Mathlib.Data.Finset.Card
import FeatureLines.Proofs.Schema.Recursion

/-!
# Opening types one below the other

`Catalogue.extract` is told which types may still be opened. Here the types that are open stand on a stack, which is what
decides whether a member comes back to one of them: a type is put on the stack before its fields are listed, and it is taken
off again whether they can be listed or not. Only so many types may be opened one below the other; where that is not enough
there is no result.

Main statements: `Catalogue.openType_stack`, the stack is left as it was found, and `Catalogue.openType_eq_extract`, as many
levels are enough as there are types, and what is found then is what is extracted.
-/

namespace FeatureLines

/-- What comes of a work that opens types: the stack of the types that are open, and the result. -/
structure Opening (α : Type) where
  stack : List Nat
  result : Except SchemaError α

namespace Catalogue

/-- A way to open a type: on a stack, in a scope. -/
abbrev Opener := List Nat → Scope → Nat → Option (Opening (List Descriptor))

/-- Lists the features of a field. The type of a member is opened unless it is open. -/
def openField (enter : Opener) (stack : List Nat) (scope : Scope) (position : Nat) (field : Field) :
    Option (Opening (List Descriptor)) :=
  match field.role.asMember? scope ⟨position, field.path, field.optional⟩ with
  | none => some ⟨stack, .ok []⟩
  | some (_, inner, leaf) =>
    let held : Option (Opening (List Descriptor)) :=
      match field.edge? with
      | none => some ⟨stack, .ok []⟩
      | some e => if e.id ∈ stack then some ⟨stack, .error e.failure⟩ else enter stack inner e.id
    held.map fun o => ⟨o.stack, o.result.map (Member.place ⟨position, field.path, field.optional⟩ leaf)⟩

/-- Lists the features of some fields, up to the first failure. -/
def openFields (enter : Opener) (stack : List Nat) (scope : Scope) (position : Nat) :
    List Field → Option (Opening (List Descriptor))
  | [] => some ⟨stack, .ok []⟩
  | field :: rest =>
    (openField enter stack scope position field).bind fun here =>
      match here.result with
      | .error failure => some ⟨here.stack, .error failure⟩
      | .ok found =>
        (openFields enter here.stack scope (position + 1) rest).map fun later =>
          ⟨later.stack, later.result.map (found ++ ·)⟩

/-- Opens a type, and below it so many others at most, one below the other. -/
def openType (c : Catalogue) : Nat → Opener
  | 0, _, _, _ => none
  | depth + 1, stack, scope, id =>
    (openFields (openType c depth) (id :: stack) scope 0 (c.fields id)).map fun o => ⟨o.stack.tail, o.result⟩

/-- Types among which are those of all members and candidates. -/
structure Covers (c : Catalogue) (types : Finset Nat) : Prop where
  members : ∀ id ∈ types, ∀ id', c.Holds id id' → id' ∈ types
  candidates : ∀ id ∈ types, ∀ action ∈ c.actions id, action.2 ∈ types

variable {c : Catalogue}

/-! ## The stack -/

lemma openFields_stack {enter : Opener} (restores : ∀ stack scope id o, enter stack scope id = some o → o.stack = stack)
    {stack : List Nat} {scope : Scope} {position : Nat} {fields : List Field} {o : Opening (List Descriptor)}
    (done : openFields enter stack scope position fields = some o) : o.stack = stack := by
  have field {position : Nat} {field : Field} {o : Opening (List Descriptor)}
      (done : openField enter stack scope position field = some o) : o.stack = stack := by
    unfold openField at done
    split at done
    · cases done
      rfl
    · obtain ⟨held, found, rfl⟩ := Option.map_eq_some_iff.1 done
      split at found
      · cases found
        rfl
      · split at found
        · cases found
          rfl
        · exact restores _ _ _ held found
  induction fields generalizing position o with
  | nil =>
    cases done
    rfl
  | cons first rest ih =>
    obtain ⟨here, opened, done⟩ := Option.bind_eq_some_iff.1 done
    have kept := field opened
    split at done
    · cases done
      exact kept
    · obtain ⟨later, listed, rfl⟩ := Option.map_eq_some_iff.1 done
      rw [kept] at listed
      exact ih (o := later) listed

/-- Opening a type leaves the stack as it was, whatever is found. -/
theorem openType_stack (c : Catalogue) (depth : Nat) (stack : List Nat) (scope : Scope) (id : Nat)
    (o : Opening (List Descriptor)) (done : c.openType depth stack scope id = some o) : o.stack = stack := by
  induction depth generalizing stack scope id o with
  | zero => cases done
  | succ depth ih =>
    obtain ⟨inner, listed, rfl⟩ := Option.map_eq_some_iff.1 done
    have kept := openFields_stack ih listed
    exact congrArg List.tail kept

/-! ## The depth -/

/-- Listing fields on a stack is extracting them, if the members that are opened are. -/
lemma openFields_eq {enter : Opener} {stack closed : List Nat} (closes : c.Closes stack closed)
    (declared : ∀ a ∈ stack, a < c.length) {fields : List Field}
    (enters : ∀ field ∈ fields, ∀ e, field.edge? = some e → e.id ∉ stack → ∀ inner,
      enter stack inner e.id = some ⟨stack, c.extractHeld closed inner e⟩) (scope : Scope) (position : Nat) :
    openFields enter stack scope position fields = some ⟨stack, c.extractFields closed scope position fields⟩ := by
  have member {position : Nat} {field : Field} (mem : field ∈ fields) :
      openField enter stack scope position field = some ⟨stack, c.extractField closed scope position field⟩ := by
    unfold openField extractField
    cases field.role.asMember? scope ⟨position, field.path, field.optional⟩ with
    | none => rfl
    | some found =>
      obtain ⟨type, inner, leaf⟩ := found
      cases edge : field.edge? with
      | none => rfl
      | some e =>
        simp only
        split
        · rename_i met
          have failed : c.extractHeld closed inner e = .error e.failure := by
            unfold extractHeld
            rw [if_neg fun mem => ((closes.mem_iff e.id).1 mem).2 met, if_pos (declared e.id met)]
          rw [failed]
          rfl
        · rename_i new
          rw [enters field mem e edge new inner]
          rfl
  induction fields generalizing position with
  | nil =>
    rw [extractFields]
    rfl
  | cons field rest ih =>
    have later := ih (fun field mem => enters field (List.mem_cons_of_mem _ mem)) (position + 1)
      fun mem => member (List.mem_cons_of_mem _ mem)
    rw [openFields, member List.mem_cons_self, extractFields_cons]
    cases found : c.extractField closed scope position field with
    | error failure => simp only [Option.bind_some]; rfl
    | ok ds =>
      simp only [Option.bind_some]
      rw [later]
      rfl

/-- Every type that is opened is one less that can be opened below it, so the types bound the depth. -/
lemma openType_eq {types : Finset Nat} (covers : c.Covers types) {depth : Nat} {stack closed : List Nat} {id : Nat}
    (mem : id ∈ types) (enough : (types \ (id :: stack).toFinset).card < depth) (closes : c.Closes (id :: stack) closed)
    (declared : ∀ a ∈ stack, a < c.length) (scope : Scope) :
    c.openType depth stack scope id = some ⟨stack, c.extractFields closed scope 0 (c.fields id)⟩ := by
  induction depth generalizing stack closed scope id with
  | zero => exact absurd enough (Nat.not_lt_zero _)
  | succ depth ih =>
    rw [openType]
    by_cases known : id < c.length
    · have declared' : ∀ a ∈ id :: stack, a < c.length := List.forall_mem_cons.2 ⟨known, declared⟩
      have enters : ∀ field ∈ c.fields id, ∀ e, field.edge? = some e → e.id ∉ id :: stack → ∀ inner,
          c.openType depth (id :: stack) inner e.id = some ⟨id :: stack, c.extractHeld closed inner e⟩ := by
        intro field mem' e edge new inner
        obtain ⟨position, at'⟩ := List.mem_iff_getElem?.1 mem'
        have mem'' : e.id ∈ types := covers.members id mem e.id ⟨position, e, by rw [edgeAt?, at']; exact edge, rfl⟩
        have fewer : (types \ (e.id :: id :: stack).toFinset).card < (types \ (id :: stack).toFinset).card := by
          apply Finset.card_lt_card
          rw [List.toFinset_cons, Finset.sdiff_insert]
          exact Finset.erase_ssubset (Finset.mem_sdiff.2 ⟨mem'', by rwa [List.mem_toFinset]⟩)
        rw [ih mem'' (by omega) (closes.erase e.id) declared' inner]
        unfold extractHeld
        split
        · rfl
        · rename_i closedOff
          have far : ¬e.id < c.length := fun known => closedOff ((closes.mem_iff e.id).2 ⟨known, new⟩)
          rw [if_neg far, fields_of_length_le (Nat.le_of_not_lt far), extractFields]
      rw [openFields_eq closes declared' enters]
      rfl
    · rw [fields_of_length_le (Nat.le_of_not_lt known), extractFields]
      rfl

/-- As many levels are enough as there are types, and what is found then is what is extracted. -/
theorem openType_eq_extract {types : Finset Nat} (covers : c.Covers types) {id : Nat} (mem : id ∈ types) {depth : Nat}
    (enough : types.card ≤ depth) (scope : Scope) :
    c.openType depth [] scope id = some ⟨[], c.extract scope id⟩ := by
  have fewer : (types \ [id].toFinset).card < types.card := by
    apply Finset.card_lt_card
    rw [List.toFinset_cons, List.toFinset_nil, Finset.sdiff_insert, Finset.sdiff_empty]
    exact Finset.erase_ssubset mem
  exact openType_eq covers mem (Nat.lt_of_lt_of_le fewer enough) (closes_root c id) (by simp) scope

end Catalogue

end FeatureLines
