import FeatureLines.Proofs.Derive.Declaration
import FeatureLines.Proofs.Derive.Literals
import FeatureLines.Proofs.Marshal.Variants

/-!
# Derived enumerations

From an enumeration a table is derived that has one entry for each variant, in order, with the name that the variant goes by:
the last one that its attributes give it, or else its identifier. The implementation of the table lists these names as
string literals and gives each identifier a position, and both meet again where a value is written: the name at the
position of a variant is its own, and either marshaller makes the feature's token from it. There is no table exactly when
the item is not such an enumeration or something is wrong with a variant (`deriveEnum_spec`).
-/

namespace FeatureLines.Derive

open Parse

/-! ## What attributes say of a variant -/

namespace VariantName

/-- The one key there is. -/
def key (_ : String) : String := "name"

/-- What stands behind the key: a string literal after an equals sign. -/
inductive Behind : List Token → String → List Token → Prop where
  | intro (joint : Bool) {literal text : String} {rest : List Token} (value : stringValue? literal = some text) :
    Behind (.punctuation '=' joint :: .literal literal :: rest) text rest

/-- The reader of names follows the grammar of settings, with one key and the last text said. -/
lemma follows : Follows readVariantSetting key Behind (fun _ => True) (fun _ text => some text) where
  suffix := by
    rintro _ _ _ ⟨⟩
    exact ⟨[_, _], rfl⟩
  single := by
    rintro _ _ _ ⟨⟩ _
    rfl
  reads := by
    rintro s _ rest text ⟨joint, value⟩ -
    exact run_strict_bind_pure_eq_ok_iff.2 ⟨_, run_readValue_eq_some_iff.2 ⟨value, joint, rfl⟩, rfl⟩
  said := by
    intro s s' k after rest ok
    unfold readVariantSetting at ok
    split at ok
    · obtain ⟨⟨literal, text⟩, read, rfl⟩ := run_strict_bind_pure_eq_ok_iff.1 ok
      obtain ⟨value, joint, rfl⟩ := run_readValue_eq_some_iff.1 read
      exact ⟨text, rfl, .intro joint value, trivial, rfl⟩
    · cases ok
  unique := by
    rintro _ _ _ a a' ⟨joint, value⟩ h' -
    cases h' with
    | intro _ value' => exact ⟨Option.some.inj (value.symm.trans value'), rfl⟩

end VariantName

/-- The names that an attribute gives to a variant, in its parentheses. -/
inductive Attribute.Names : Attribute → List String → Prop where
  | list (name : Option String) {content : List Token} {texts : List String}
    (listed : Listed (Written VariantName.key VariantName.Behind) content texts) : Names ⟨name, .list content⟩ texts

/-- A variant is named by the last name that its attributes give it, or else by its identifier. -/
structure Variant.Named (v : Variant) (n : NamedVariant) : Prop where
  identifier : n.identifier = v.name
  name : ∃ parts, List.Forall₂ Attribute.Names (v.attributes.filter Attribute.isOurs) parts ∧
    n.name = parts.flatten.getLast?.getD v.name

/-- What is wrong with a variant: it has fields, or an attribute that gives no names. -/
def Variant.IsFaulty (v : Variant) : Prop :=
  v.isUnit = false ∨ ∃ a ∈ v.attributes, a.isOurs ∧ ∀ texts, ¬a.Names texts

/-- Reading names one after the other leaves the last one. -/
lemma foldl_some (name : Option String) (texts : List String) :
    texts.foldl (fun _ text => some text) name = texts.getLast?.or name := by
  induction texts using List.reverseRecOn with
  | nil => rfl
  | append_singleton texts text _ => simp

/-- The attributes are read exactly when each gives names, and what is read is the last of all. -/
lemma readVariantName_eq_ok_iff {attributes : List Attribute} {name name' : Option String} :
    readVariantName name attributes = .ok name' ↔
      ∃ parts, List.Forall₂ Attribute.Names attributes parts ∧ name' = parts.flatten.getLast?.or name := by
  induction attributes generalizing name with
  | nil => simp [readVariantName, eq_comm]
  | cons a attributes ih =>
    obtain ⟨path, form⟩ := a
    rw [readVariantName]
    constructor
    · intro ok
      cases form with
      | word => cases ok
      | value => cases ok
      | list content =>
        obtain ⟨middle, read, rest⟩ := Except.bind_eq_ok.1 ok
        obtain ⟨texts, listed, -, rfl⟩ := VariantName.follows.settingsOf_eq_ok_iff.1 read
        obtain ⟨parts, each, rfl⟩ := ih.1 rest
        refine ⟨texts :: parts, .cons (.list path listed) each, ?_⟩
        rw [foldl_some, List.flatten_cons, List.getLast?_append, Option.or_assoc]
    · rintro ⟨parts, each, rfl⟩
      cases each with
      | cons first each =>
        cases first with
        | list _ listed =>
          refine Except.bind_eq_ok.2 ⟨_, VariantName.follows.settingsOf_eq_ok_iff.2 ⟨_, listed, by simp, rfl⟩, ?_⟩
          refine ih.2 ⟨_, each, ?_⟩
          rw [foldl_some, List.flatten_cons, List.getLast?_append, Option.or_assoc]

/-- What is read of the attributes names the variant. -/
lemma named_of_variantName? {v : Variant} {name : Option String} (ok : variantName? v.attributes = .ok name) :
    v.Named ⟨v.name, name.getD v.name⟩ := by
  obtain ⟨parts, each, rfl⟩ := readVariantName_eq_ok_iff.1 ok
  exact ⟨rfl, parts, each, by rw [Option.or_none]⟩

/-- Reading fails at an attribute that gives no names, and for no other reason. -/
lemma exists_variantName?_eq_error_iff {attributes : List Attribute} :
    (∃ e, variantName? attributes = .error e) ↔ ∃ a ∈ attributes, a.isOurs ∧ ∀ texts, ¬a.Names texts := by
  have succeeds : (∃ name, variantName? attributes = .ok name) ↔ ∀ a ∈ attributes, a.isOurs → ∃ texts, a.Names texts := by
    have ours : (∃ parts, List.Forall₂ Attribute.Names (attributes.filter Attribute.isOurs) parts) ↔ _ :=
      List.exists_forall₂_iff
    simp only [List.mem_filter, and_imp] at ours
    rw [← ours]
    constructor
    · rintro ⟨name, ok⟩
      obtain ⟨parts, each, -⟩ := readVariantName_eq_ok_iff.1 ok
      exact ⟨parts, each⟩
    · rintro ⟨parts, each⟩
      exact ⟨_, readVariantName_eq_ok_iff.2 ⟨parts, each, rfl⟩⟩
  rw [Except.exists_eq_error_iff, succeeds]
  push Not
  rfl

/-! ## Tables of variants -/

namespace Item

/-- An enumeration without generic parameters. -/
inductive IsEnumeration : Item → List Variant → Prop where
  | intro (name : String) (variants : List Variant) : IsEnumeration ⟨name, false, .variants variants⟩ variants

/-- The table has one entry for each variant of the item, in order, all of which are units. -/
structure Tabulates (item : Item) (t : VariantTable) : Prop where
  name : t.name = item.name
  variants : ∃ variants, item.IsEnumeration variants ∧
    List.Forall₂ (fun (v : Variant) n => v.isUnit ∧ v.Named n) variants t.variants

/-- There is no table for the item. -/
def HasNoTable (item : Item) : Prop :=
  (∀ variants, ¬item.IsEnumeration variants) ∨ ∃ variants, item.IsEnumeration variants ∧ ∃ v ∈ variants, v.IsFaulty

/-- Variants that are all named are units, each with its name. -/
lemma forall₂_of_nameVariants {variants : List Variant} {named : List NamedVariant} (ok : nameVariants variants = .ok named) :
    List.Forall₂ (fun (v : Variant) n => v.isUnit ∧ v.Named n) variants named := by
  induction variants generalizing named with
  | nil =>
    cases ok
    exact .nil
  | cons v variants ih =>
    rw [nameVariants] at ok
    split at ok
    case isTrue isUnit =>
      obtain ⟨name, read, ok⟩ := Except.bind_eq_ok.1 ok
      obtain ⟨others, rest, ok⟩ := Except.bind_eq_ok.1 ok
      cases ok
      exact .cons ⟨isUnit, named_of_variantName? read⟩ (ih rest)
    · cases ok

/-- Naming fails when something is wrong with one of the variants. -/
lemma exists_nameVariants_eq_error_iff {variants : List Variant} :
    (∃ e, nameVariants variants = .error e) ↔ ∃ v ∈ variants, v.IsFaulty := by
  induction variants with
  | nil => exact ⟨fun ⟨_, failed⟩ => (by cases failed), fun ⟨_, mem, _⟩ => (by cases mem)⟩
  | cons v variants ih =>
    rw [List.exists_mem_cons_iff, ← ih, Variant.IsFaulty, ← exists_variantName?_eq_error_iff, nameVariants]
    cases v.isUnit with
    | false => exact ⟨fun _ => .inl (.inl rfl), fun _ => ⟨_, rfl⟩⟩
    | true =>
      rw [if_pos rfl]
      cases variantName? v.attributes with
      | error e => exact ⟨fun _ => .inl (.inr ⟨e, rfl⟩), fun _ => ⟨e, rfl⟩⟩
      | ok name =>
        cases nameVariants variants with
        | error e => exact ⟨fun _ => .inr ⟨e, rfl⟩, fun _ => ⟨e, rfl⟩⟩
        | ok named =>
          refine ⟨fun ⟨_, failed⟩ => (by cases failed), ?_⟩
          rintro ((failed | ⟨_, failed⟩) | ⟨_, failed⟩) <;> cases failed

/-- The table of an enumeration has its name and its named variants. -/
lemma variantTable_of_isEnumeration {item : Item} {variants : List Variant} (h : item.IsEnumeration variants) :
    item.variantTable = (nameVariants variants).map (⟨item.name, ·⟩) := by
  cases h
  rfl

/-- An item of any other form has no table. -/
lemma exists_variantTable_eq_error {item : Item} (h : ∀ variants, ¬item.IsEnumeration variants) :
    ∃ e, item.variantTable = .error e := by
  obtain ⟨name, isGeneric, body⟩ := item
  unfold variantTable
  cases body with
  | variants variants =>
    cases isGeneric with
    | true => exact ⟨_, rfl⟩
    | false => exact (h variants (.intro name variants)).elim
  | _ => exact ⟨_, rfl⟩

/-- A table that is made has an entry for each variant. -/
lemma tabulates_of_variantTable {item : Item} {t : VariantTable} (ok : item.variantTable = .ok t) : item.Tabulates t := by
  obtain ⟨variants, named, h, made, rfl⟩ :=
    exists_of_map_eq_ok (fun _ => variantTable_of_isEnumeration) exists_variantTable_eq_error ok
  exact ⟨rfl, variants, h, forall₂_of_nameVariants made⟩

/-- No table is made exactly for the items that have none. -/
lemma exists_variantTable_eq_error_iff {item : Item} : (∃ e, item.variantTable = .error e) ↔ item.HasNoTable :=
  exists_eq_error_iff_of_map (fun _ => variantTable_of_isEnumeration) exists_variantTable_eq_error
    fun _ => exists_nameVariants_eq_error_iff

end Item

/-! ## The code of a table -/

/-- An implementation as it is written: the literals of the names, and the arms that give each identifier a literal. -/
structure Implementation where
  name : String
  literals : List String
  arms : List (String × String)

namespace Implementation

/-- An arm of the match on a value. -/
def armCode (arm : String × String) : Code := Derive.code "Self : :" ++ [arm.1, "=", ">", arm.2, ","]

/-- Literals with commas between them, and arms one after the other. -/
def code (m : Implementation) : Code :=
  Derive.code "impl : : featwire : : FeatureEnum for" ++ [m.name] ++
    inBraces (Derive.code "fn variants ( ) - > & ' static [ & ' static str ]" ++
      inBraces (["&", "["] ++ m.literals.intersperse "," ++ ["]"]) ++
      Derive.code "fn variant_index ( & self ) - > usize" ++
      inBraces (if m.arms.isEmpty then Derive.code "match * self" ++ inBraces []
        else Derive.code "match self" ++ inBraces (m.arms.flatMap armCode)))

/-- The values of the literals. -/
def variants (m : Implementation) : Option (List String) := m.literals.mapM stringValue?

/-- The number that the first arm with an identifier gives. -/
def variantIndex (m : Implementation) (identifier : String) : Option Nat := (m.arms.lookup identifier).bind naturalValue?

end Implementation

namespace VariantTable

/-- The arms of variants that are numbered from a number on. -/
def arms (start : Nat) (variants : List NamedVariant) : List (String × String) :=
  (variants.zipIdx start).map fun v => (v.1.identifier, toString v.2 ++ "usize")

def implementation (t : VariantTable) : Implementation where
  name := t.name
  literals := t.variants.map fun v => stringLiteral v.name
  arms := arms 0 t.variants

/-- The names are written as string literals with commas between them. -/
lemma namesCode_eq (variants : List NamedVariant) :
    namesCode variants = (variants.map fun v => stringLiteral v.name).intersperse "," := by
  induction variants with
  | nil => rfl
  | cons v variants ih =>
    cases variants with
    | nil => rfl
    | cons w variants => exact congrArg ([stringLiteral v.name, ","] ++ ·) ih

/-- The first arm has the number that is started from, and the others follow on. -/
lemma arms_cons (start : Nat) (v : NamedVariant) (variants : List NamedVariant) :
    arms start (v :: variants) = (v.identifier, toString start ++ "usize") :: arms (start + 1) variants := rfl

/-- The arms are written one after the other. -/
lemma armsCode_eq (start : Nat) (variants : List NamedVariant) :
    armsCode start variants = (arms start variants).flatMap Implementation.armCode := by
  induction variants generalizing start with
  | nil => rfl
  | cons v variants ih =>
    rw [armsCode, ih, arms_cons, List.flatMap_cons]
    rfl

/-- The code of a table is that of its implementation. -/
lemma code_eq (t : VariantTable) : t.code = t.implementation.code := by
  have none : t.implementation.arms.isEmpty = t.variants.isEmpty := by
    rw [implementation]
    cases t.variants <;> rfl
  rw [code, Implementation.code, none, namesCode_eq, armsCode_eq, implementation]

/-- The literals stand for the names, in order. -/
lemma variants_implementation (t : VariantTable) : t.implementation.variants = some (t.variants.map NamedVariant.name) := by
  have values : (stringValue? ∘ fun v : NamedVariant => stringLiteral v.name) = fun v => pure v.name :=
    funext fun v => stringValue?_stringLiteral v.name
  rw [Implementation.variants, implementation, List.mapM_map, values, List.mapM_pure]
  rfl

/-- The variant at a position, and the only one up to there with its identifier. -/
structure IsFirstAt (variants : List NamedVariant) (i : Nat) (v : NamedVariant) : Prop where
  found : variants[i]? = some v
  first : ∀ j < i, ∀ w, variants[j]? = some w → w.identifier ≠ v.identifier

/-- The first arm with the identifier of a variant has the number of the first such variant. -/
lemma lookup_arms {variants : List NamedVariant} {i : Nat} {v : NamedVariant} (h : IsFirstAt variants i v) (start : Nat) :
    (arms start variants).lookup v.identifier = some (toString (start + i) ++ "usize") := by
  induction variants generalizing i start with
  | nil => cases h.found
  | cons w variants ih =>
    rw [arms_cons, List.lookup_cons]
    cases i with
    | zero =>
      obtain rfl : w = v := Option.some.inj h.found
      simp
    | succ i =>
      have other : v.identifier ≠ w.identifier := (h.first 0 i.succ_pos w rfl).symm
      have inRest : IsFirstAt variants i v := ⟨h.found, fun j lt => h.first (j + 1) (Nat.succ_lt_succ lt)⟩
      simp only [beq_eq_false_iff_ne.2 other, ih inRest (start + 1)]
      rw [Nat.add_right_comm, Nat.add_assoc]

/-- The first variant with an identifier is given its position. -/
lemma variantIndex_implementation {t : VariantTable} {i : Nat} {v : NamedVariant} (h : IsFirstAt t.variants i v) :
    t.implementation.variantIndex v.identifier = some i := by
  rw [Implementation.variantIndex, implementation, lookup_arms h, Nat.zero_add, Option.bind_some, naturalValue?_usize]

end VariantTable

/-- The implementation numbers the variants of a table as it lists their names, and values of an enumeration with these
names are written alike on both ways. -/
structure Implementation.Agrees (m : Implementation) (t : VariantTable) : Prop where
  name : m.name = t.name
  variants : m.variants = some (t.variants.map NamedVariant.name)
  position {i : Nat} {v : NamedVariant} (h : VariantTable.IsFirstAt t.variants i v) :
    m.variantIndex v.identifier = some i ∧ (t.variants.map NamedVariant.name)[i]? = some v.name
  marshals {d : Descriptor} (form : d.type.form = .enumeration (t.variants.map NamedVariant.name)) :
    ∃ builtIn enumerizing, Handle.builtIn? d.type = some builtIn ∧ Handle.enumerizing? d.type = some enumerizing ∧
      d.WritesVariants (t.variants.map NamedVariant.name) builtIn enumerizing

/-- What is written for a table agrees with it. -/
lemma VariantTable.agrees_implementation (t : VariantTable) : t.implementation.Agrees t where
  name := rfl
  variants := t.variants_implementation
  position h := ⟨variantIndex_implementation h, by rw [List.getElem?_map, h.found, Option.map_some]⟩
  marshals form := Descriptor.exists_writesVariants form

/-- The code that is derived from a source is that of an implementation which agrees with a table of all variants, in order,
each with the name that it is given or else its identifier. The derivation fails exactly when the source is no item, the
item is no enumeration, or there is a variant with fields or with an attribute that gives no names. -/
theorem deriveEnum_spec (source : String) :
    (∀ text, deriveEnum source = .ok text →
      ∃ item t, Item.read? source = some item ∧ item.Tabulates t ∧
        ∃ m : Implementation, m.Agrees t ∧ text = " ".intercalate m.code) ∧
    ((∃ e, deriveEnum source = .error e) ↔ ∀ item, Item.read? source = some item → item.HasNoTable) := by
  constructor
  · intro text ok
    obtain ⟨item, t, read, made, rfl⟩ := derive_eq_ok_iff.1 ok
    exact ⟨item, t, read, Item.tabulates_of_variantTable made, t.implementation, t.agrees_implementation, by rw [t.code_eq]⟩
  · exact exists_derive_eq_error_iff.trans
      (forall_congr' fun item => imp_congr_right fun _ => Item.exists_variantTable_eq_error_iff)

end FeatureLines.Derive
