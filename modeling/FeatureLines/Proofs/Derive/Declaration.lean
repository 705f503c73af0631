import FeatureLines.Proofs.Derive.Access
import FeatureLines.Proofs.Derive.Fields

/-!
# Derived declarations

From a structure a declaration is derived that has one call for each field that is not skipped, in order; which call it is
follows from the roles that are said, and a feature takes along all that is said of it, of each key the last setting.
There is no declaration exactly when the item is not such a structure or something is wrong with the attributes of a
field, be it skipped or not (`deriveExample_spec`).
-/

namespace FeatureLines.Derive

open FieldSetting FieldSettings

/-! ## Deriving from a source -/

variable {α β γ : Type}

/-- Something that is made of items of one form fails on the other items, and on those where the making fails. -/
lemma exists_eq_error_iff_of_map {IsForm Fault : γ → Prop} {make : γ → Except DeriveError α} {f : α → β}
    {x : Except DeriveError β} (one : ∀ m, IsForm m → x = (make m).map f)
    (other : (∀ m, ¬IsForm m) → ∃ e, x = .error e) (fails : ∀ m, (∃ e, make m = .error e) ↔ Fault m) :
    (∃ e, x = .error e) ↔ (∀ m, ¬IsForm m) ∨ ∃ m, IsForm m ∧ Fault m := by
  have failing (m : γ) (h : IsForm m) : (∃ e, x = .error e) ↔ Fault m := by
    rw [one m h, ← fails]
    exact exists_congr fun e => Except.map_eq_error
  constructor
  · intro failed
    by_cases form : ∃ m, IsForm m
    · obtain ⟨m, h⟩ := form
      exact .inr ⟨m, h, (failing m h).1 failed⟩
    · exact .inl (not_exists.1 form)
  · rintro (none | ⟨m, h, fault⟩)
    · exact other none
    · exact (failing m h).2 fault

/-- Something that is made of items of one form succeeds only on such an item of which the making succeeds. -/
lemma exists_of_map_eq_ok {IsForm : γ → Prop} {make : γ → Except DeriveError α} {f : α → β} {x : Except DeriveError β}
    (one : ∀ m, IsForm m → x = (make m).map f) (other : (∀ m, ¬IsForm m) → ∃ e, x = .error e) {b : β} (ok : x = .ok b) :
    ∃ m a, IsForm m ∧ make m = .ok a ∧ b = f a := by
  by_cases form : ∃ m, IsForm m
  · obtain ⟨m, h⟩ := form
    rw [one m h] at ok
    obtain ⟨a, made, rfl⟩ := Except.map_eq_ok.1 ok
    exact ⟨m, a, h, made, rfl⟩
  · obtain ⟨e, failed⟩ := other (not_exists.1 form)
    cases failed.symm.trans ok

variable {make : Item → Except DeriveError α} {print : α → β} {source : String}

/-- What is derived is printed from an item that can be read and made something of. -/
lemma derive_eq_ok_iff {b : β} :
    ((readItem? source).bind make).map print = .ok b ↔
      ∃ item a, Item.read? source = some item ∧ make item = .ok a ∧ print a = b := by
  rw [Except.map_eq_ok, readItem?]
  cases Item.read? source with
  | none => simp [Except.bind]
  | some item => simp [Except.bind]

/-- Deriving fails when the source is no item, or one of which nothing can be made. -/
lemma exists_derive_eq_error_iff :
    (∃ e, ((readItem? source).bind make).map print = .error e) ↔
      ∀ item, Item.read? source = some item → ∃ e, make item = .error e := by
  simp only [Except.map_eq_error, readItem?]
  cases Item.read? source with
  | none => simp [Except.bind]
  | some item => simp [Except.bind]

/-! ## Fields -/

/-- What a field contributes to a declaration: the call for its role, with a way that fits the field. -/
inductive NamedField.Declares (sized : TypeExpr → Prop) (f : NamedField) : Option Call → Prop where
  | skipped {all : List FieldSetting} (said : Said f.attributes all) (mem : role .skipped ∈ all) : Declares sized f none
  | label {all : List FieldSetting} {access : Access} (said : Said f.attributes all) (mem : role .label ∈ all)
    (way : access.Reaches sized f.name f.type) : Declares sized f (some (.label access))
  | actions {all : List FieldSetting} {access : Access} (said : Said f.attributes all) (mem : role .actions ∈ all)
    (way : access.Reaches sized f.name f.type) : Declares sized f (some (.actions access))
  | feature {all : List FieldSetting} {access : Access} (said : Said f.attributes all) (plain : ∀ r, role r ∉ all)
    (annotated : ∃ a ∈ f.attributes, a.isOurs) (way : access.Reaches sized f.name f.type) :
    Declares sized f (some (.feature (inForce true all) access))
  | nested {access : Access} (bare : ∀ a ∈ f.attributes, ¬a.isOurs) (way : access.Reaches sized f.name f.type) :
    Declares sized f (some (.nested access))

namespace Call

/-- The call for a field whose attributes are read. -/
lemma declares_ofField? {f : NamedField} {s : FieldSettings} (read : ofAttributes f.attributes = .ok s) :
    f.Declares TypeExpr.IsOtherPath (ofField? f s) := by
  obtain ⟨all, said, -, -, rfl⟩ := ofAttributes_eq_ok_iff.1 read
  have way := Access.reaches f.name f.type
  unfold ofField?
  simp only
  split
  case isTrue skipped => exact .skipped said (isSaid_iff.1 skipped)
  case isFalse unskipped =>
    split
    case isTrue label => exact .label said (isSaid_iff.1 label) way
    case isFalse unlabelled =>
      split
      case isTrue actions => exact .actions said (isSaid_iff.1 actions) way
      case isFalse plain =>
        have noRole (r : Role) : role r ∉ all := by
          cases r with
          | label => exact mt isSaid_iff.2 unlabelled
          | actions => exact mt isSaid_iff.2 plain
          | skipped => exact mt isSaid_iff.2 unskipped
        cases ours : (f.attributes.filter Attribute.isOurs).isEmpty with
        | true =>
          refine .nested (fun a mem isOurs => ?_) way
          have none := List.filter_eq_nil_iff.1 (List.isEmpty_iff.1 ours)
          exact none a mem isOurs
        | false =>
          obtain ⟨a, mem⟩ := List.exists_mem_of_ne_nil _ (List.isEmpty_eq_false_iff.1 ours)
          obtain ⟨mem, isOurs⟩ := List.mem_filter.1 mem
          exact .feature said noRole ⟨a, mem, isOurs⟩ way

/-- The calls are those of the fields, one after the other. -/
lemma forall₂_declares_of_ofFields {fields : List NamedField} {calls : List Call} (ok : ofFields fields = .ok calls) :
    ∃ parts, List.Forall₂ (NamedField.Declares TypeExpr.IsOtherPath) fields parts ∧ calls = parts.reduceOption := by
  induction fields generalizing calls with
  | nil =>
    cases ok
    exact ⟨[], .nil, rfl⟩
  | cons f fields ih =>
    rw [ofFields] at ok
    obtain ⟨s, read, ok⟩ := Except.bind_eq_ok.1 ok
    obtain ⟨others, rest, ok⟩ := Except.bind_eq_ok.1 ok
    cases ok
    obtain ⟨parts, each, rfl⟩ := ih rest
    refine ⟨ofField? f s :: parts, .cons (declares_ofField? read) each, ?_⟩
    cases ofField? f s <;> rfl

/-- The first field with something wrong ends it. -/
lemma exists_ofFields_eq_error_iff {fields : List NamedField} :
    (∃ e, ofFields fields = .error e) ↔ ∃ f ∈ fields, Fault f.attributes := by
  induction fields with
  | nil => exact ⟨fun ⟨_, failed⟩ => (by cases failed), fun ⟨_, mem, _⟩ => (by cases mem)⟩
  | cons f fields ih =>
    rw [List.exists_mem_cons_iff, ← exists_ofAttributes_eq_error_iff, ← ih, ofFields]
    cases ofAttributes f.attributes with
    | error e => exact ⟨fun _ => .inl ⟨e, rfl⟩, fun _ => ⟨e, rfl⟩⟩
    | ok s =>
      cases ofFields fields with
      | error e => exact ⟨fun _ => .inr ⟨e, rfl⟩, fun _ => ⟨e, rfl⟩⟩
      | ok calls =>
        refine ⟨fun ⟨_, failed⟩ => (by cases failed), ?_⟩
        rintro (⟨_, failed⟩ | ⟨_, failed⟩) <;> cases failed

end Call

namespace Item

/-- A structure with named fields, or with none, that has no generic parameters. -/
inductive IsStructure : Item → List NamedField → Prop where
  | named (name : String) (fields : List NamedField) : IsStructure ⟨name, false, .namedFields fields⟩ fields
  | unit (name : String) : IsStructure ⟨name, false, .noFields⟩ []

/-- What is declared for an item. -/
structure Declares (sized : TypeExpr → Prop) (item : Item) (d : Declaration) : Prop where
  name : d.name = item.name
  calls : ∃ fields calls, item.IsStructure fields ∧ List.Forall₂ (NamedField.Declares sized) fields calls ∧
    d.calls = calls.reduceOption

/-- Nothing can be declared for an item. -/
def IsRefused (item : Item) : Prop :=
  (∀ fields, ¬item.IsStructure fields) ∨ ∃ fields, item.IsStructure fields ∧ ∃ f ∈ fields, Fault f.attributes

/-- A structure is declared by the calls of its fields. -/
lemma declaration_of_isStructure {item : Item} {fields : List NamedField} (h : item.IsStructure fields) :
    item.declaration = (Call.ofFields fields).map (⟨item.name, ·⟩) := by
  cases h <;> rfl

/-- Only structures with named fields, or with none, and without generic parameters are declared. -/
lemma exists_declaration_eq_error {item : Item} (h : ∀ fields, ¬item.IsStructure fields) :
    ∃ e, item.declaration = .error e := by
  obtain ⟨name, isGeneric, body⟩ := item
  unfold declaration
  cases body with
  | namedFields fields =>
    cases isGeneric with
    | true => exact ⟨_, rfl⟩
    | false => exact (h fields (.named name fields)).elim
  | noFields =>
    cases isGeneric with
    | true => exact ⟨_, rfl⟩
    | false => exact (h [] (.unit name)).elim
  | _ => exact ⟨_, rfl⟩

/-- What is derived declares the item. -/
lemma declares_of_declaration {item : Item} {d : Declaration} (ok : item.declaration = .ok d) :
    item.Declares TypeExpr.IsOtherPath d := by
  obtain ⟨fields, calls, h, read, rfl⟩ :=
    exists_of_map_eq_ok (fun _ => declaration_of_isStructure) exists_declaration_eq_error ok
  obtain ⟨parts, each, eq⟩ := Call.forall₂_declares_of_ofFields read
  exact ⟨rfl, fields, parts, h, each, eq⟩

/-- Deriving fails exactly for the items that are to be refused. -/
lemma exists_declaration_eq_error_iff {item : Item} : (∃ e, item.declaration = .error e) ↔ item.IsRefused :=
  exists_eq_error_iff_of_map (fun _ => declaration_of_isStructure) exists_declaration_eq_error
    fun _ => Call.exists_ofFields_eq_error_iff

end Item

/-- The code that is derived from a source is that of a declaration with one call for each field that is not skipped, in
order. The derivation fails exactly when the source is no item, the item is no structure, or something is wrong with the
attributes of a field. -/
theorem deriveExample_spec (source : String) :
    (∀ text, deriveExample source = .ok text →
      ∃ item d, Item.read? source = some item ∧ item.Declares TypeExpr.IsOtherPath d ∧ text = " ".intercalate d.code) ∧
    ((∃ e, deriveExample source = .error e) ↔ ∀ item, Item.read? source = some item → item.IsRefused) := by
  constructor
  · intro text ok
    obtain ⟨item, d, read, derived, rfl⟩ := derive_eq_ok_iff.1 ok
    exact ⟨item, d, read, Item.declares_of_declaration derived, rfl⟩
  · exact exists_derive_eq_error_iff.trans
      (forall_congr' fun item => imp_congr_right fun _ => Item.exists_declaration_eq_error_iff)

/-- Paths of library types whose values have no size of their own. -/
def unsizedPaths : List String := ["str", "std::primitive::str", "std::path::Path", "std::ffi::OsStr", "std::ffi::CStr"]

/-- A path of a type with a size, as far as the library goes. -/
def TypeExpr.IsSizedPath (type : TypeExpr) : Prop := type.isPath ∧ "".intercalate (Token.textsOf type.tokens) ∉ unsizedPaths

/-- The fields that have names. -/
def Body.fields : Body → List NamedField
  | .namedFields fields => fields
  | .unnamedFields => []
  | .noFields => []
  | .variants _ => []
  | .union => []

/-- The item is a structure with one field that has no attributes, and whose type is this path in a box. -/
def Item.boxesOnly (item : Item) (path : String) : Bool :=
  !item.isGeneric && item.body.fields.length == 1 && item.body.fields.all fun f =>
    f.attributes.isEmpty && f.type.unbox?.any fun inner => "".intercalate (Token.textsOf inner.tokens) = path

/-- An item that only boxes a path is a structure with one plain field. -/
lemma Item.exists_of_boxesOnly {item : Item} {path : String} (h : item.boxesOnly path) :
    ∃ f inner, item = ⟨item.name, false, .namedFields [f]⟩ ∧ f.attributes = [] ∧ f.type.unbox? = some inner ∧
      "".intercalate (Token.textsOf inner.tokens) = path := by
  obtain ⟨name, isGeneric, body⟩ := item
  simp only [boxesOnly, Bool.and_eq_true, Bool.not_eq_true', beq_iff_eq, List.all_eq_true, List.isEmpty_iff,
    Option.any_eq_true, decide_eq_true_eq] at h
  obtain ⟨⟨rfl, one⟩, each⟩ := h
  obtain ⟨f, only⟩ := List.length_eq_one_iff.1 one
  obtain ⟨bare, inner, found, path⟩ := each f (by rw [only]; exact List.mem_singleton_self f)
  cases body with
  | namedFields fields =>
    cases only
    exact ⟨f, inner, rfl, bare, found, path⟩
  | _ => cases only

/-- A path in a box is unboxed though it has no size. -/
theorem not_declares_sized :
    ¬∀ source item d, Item.read? source = some item → item.declaration = .ok d → item.Declares TypeExpr.IsSizedPath d := by
  intro claimed
  have source : ((Item.read? "struct S \x7b p: Box<std::path::Path> \x7d").any fun item =>
      item.boxesOnly "std::path::Path") = true := by decide +kernel
  obtain ⟨item, read, only⟩ := (Option.any_eq_true _ _).1 source
  obtain ⟨⟨attributes, field, type⟩, inner, shape, rfl, found, path⟩ := Item.exists_of_boxesOnly only
  rw [shape] at read
  obtain ⟨inBox, other⟩ := TypeExpr.unbox?_eq_some_iff.1 found
  have derived : Access.of field _ = _ := Access.of_box inBox other
  obtain ⟨-, fields, calls, structured, each, eq⟩ := claimed _ _ _ read rfl
  cases structured
  obtain ⟨call, _, declares, rest, rfl⟩ := List.forall₂_cons_left_iff.1 each
  cases rest
  cases declares with
  | nested bare way =>
    have same := (Call.nested.inj (List.cons.inj eq).1).symm.trans derived
    subst same
    rcases way.strips.of_box inBox with ⟨isSized, -⟩ | ⟨-, unchanged⟩
    · exact isSized.2 (by rw [path]; decide)
    · exact inBox.ne unchanged
  | _ => cases eq

end FeatureLines.Derive
