import Mathlib.Data.Option.Basic
import FeatureLines.Derive.Expansion

/-!
# Reaching the value of a field

With the meaning that `Option` and `Box` have in the core library, a getter fits its field: it gives a reference to a
value of the declared type, and nothing exactly where the field's option is empty. Which wrappers are taken off is said
relative to the types inside a box that are taken for sized (`Strips`): the test at hand takes every path for one but the
word `str`.
-/

namespace FeatureLines.Derive

namespace TypeExpr

variable {wrapper : String} {type inner : TypeExpr}

/-- The type is a wrapper around another one: a path, not a qualified one, that ends in the wrapper's name with that type
for its only argument. -/
def Wraps (wrapper : String) (type inner : TypeExpr) : Prop :=
  ∃ tokens form, type = path tokens form wrapper [some inner] ∧ ¬form.isQualified

/-- A wrapper is taken off exactly where there is one. -/
lemma unwrap?_eq_some_iff : type.unwrap? wrapper = some inner ↔ Wraps wrapper type inner := by
  unfold unwrap?
  constructor
  · intro found
    split at found
    case h_1 tokens form last content =>
      split at found
      case isTrue h =>
        cases found
        simp only [Bool.and_eq_true, decide_eq_true_eq, Bool.not_eq_true'] at h
        exact ⟨tokens, form, by rw [h.1], by simp [h.2]⟩
      · cases found
    · cases found
  · rintro ⟨tokens, form, rfl, plain⟩
    simp [plain]

/-- There is one type inside a wrapper. -/
lemma Wraps.unique {inner' : TypeExpr} (h : Wraps wrapper type inner) (h' : Wraps wrapper type inner') : inner = inner' :=
  Option.some.inj ((unwrap?_eq_some_iff.2 h).symm.trans (unwrap?_eq_some_iff.2 h'))

/-- What is inside is a smaller type. -/
lemma Wraps.ne (h : Wraps wrapper type inner) : inner ≠ type := by
  obtain ⟨tokens, form, rfl, -⟩ := h
  intro same
  have size := congrArg sizeOf same
  simp only [path.sizeOf_spec, List.cons.sizeOf_spec, Option.some.sizeOf_spec] at size
  omega

/-- Boxes are not options. -/
lemma Wraps.not_option (h : Wraps "Box" type inner) (inner' : TypeExpr) : ¬Wraps "Option" type inner' := by
  rintro ⟨_, _, eq, -⟩
  obtain ⟨_, _, rfl, -⟩ := h
  simp at eq

/-- A box around a type that is taken for sized is taken off. -/
inductive Unboxes (sized : TypeExpr → Prop) : TypeExpr → TypeExpr → Prop where
  | boxed {type inner : TypeExpr} (wraps : Wraps "Box" type inner) (isSized : sized inner) : Unboxes sized type inner
  | bare {type : TypeExpr} (unsized : ∀ inner, Wraps "Box" type inner → ¬sized inner) : Unboxes sized type type

/-- What is left of a type when one `Option` and then one `Box` around a sized type are taken off it, and whether there was
an option. -/
inductive Strips (sized : TypeExpr → Prop) : TypeExpr → Bool → TypeExpr → Prop where
  | optional {type inner value : TypeExpr} (wraps : Wraps "Option" type inner) (unboxes : Unboxes sized inner value) :
    Strips sized type true value
  | required {type value : TypeExpr} (none : ∀ inner, ¬Wraps "Option" type inner) (unboxes : Unboxes sized type value) :
    Strips sized type false value

/-- What is left of a box is what is in it, if that is taken for sized, or else the box. -/
lemma Strips.of_box {sized : TypeExpr → Prop} {isOptional : Bool} {value : TypeExpr} (h : Strips sized type isOptional value)
    (inBox : Wraps "Box" type inner) : sized inner ∧ value = inner ∨ ¬sized inner ∧ value = type := by
  cases h with
  | optional wraps => exact (inBox.not_option _ wraps).elim
  | required _ unboxes =>
    cases unboxes with
    | boxed wraps isSized =>
      cases wraps.unique inBox
      exact .inl ⟨isSized, rfl⟩
    | bare unsized => exact .inr ⟨unsized _ inBox, rfl⟩

/-- A path that is not the word `str`. -/
def IsOtherPath (type : TypeExpr) : Prop := type.isPath ∧ ¬type.isStr

/-- A box is taken off when what is in it is taken for sized. -/
lemma unbox?_eq_some_iff : type.unbox? = some inner ↔ Wraps "Box" type inner ∧ inner.IsOtherPath := by
  unfold unbox?
  rw [Option.filter_eq_some_iff, unwrap?_eq_some_iff]
  simp [IsOtherPath]

/-- A box stays where what is in it is not taken for sized. -/
lemma unbox?_eq_none_iff : type.unbox? = none ↔ ∀ inner, Wraps "Box" type inner → ¬inner.IsOtherPath := by
  rw [Option.eq_none_iff_forall_ne_some]
  exact forall_congr' fun inner => by rw [Ne, unbox?_eq_some_iff, not_and]

end TypeExpr

open TypeExpr

/-- A value in a field: in an option, in a box, or by itself. -/
inductive Stored (V : Type) where
  | plain (v : V)
  | missing
  | present (inner : Stored V)
  | boxed (inner : Stored V)

namespace Stored

variable {V : Type}

/-- The values of a type, where `Option` and `Box` are those of the core library. -/
inductive OfType : TypeExpr → Stored V → Prop where
  | plain {type : TypeExpr} (noOption : ∀ inner, ¬Wraps "Option" type inner) (noBox : ∀ inner, ¬Wraps "Box" type inner)
    (v : V) : OfType type (.plain v)
  | missing {type inner : TypeExpr} (wraps : Wraps "Option" type inner) : OfType type .missing
  | present {type inner : TypeExpr} {s : Stored V} (wraps : Wraps "Option" type inner) (h : OfType inner s) :
    OfType type (.present s)
  | boxed {type inner : TypeExpr} {s : Stored V} (wraps : Wraps "Box" type inner) (h : OfType inner s) :
    OfType type (.boxed s)

variable {type inner : TypeExpr} {s : Stored V}

/-- A value of an option's type is missing, or holds a value of the type inside. -/
lemma OfType.of_option (h : OfType type s) (wraps : Wraps "Option" type inner) :
    s = .missing ∨ ∃ content, s = .present content ∧ content.OfType inner := by
  cases h with
  | plain noOption => exact (noOption _ wraps).elim
  | missing => exact .inl rfl
  | present wraps' h => exact .inr ⟨_, rfl, wraps'.unique wraps ▸ h⟩
  | boxed wraps' => exact (wraps'.not_option _ wraps).elim

/-- A value of a box's type holds a value of the type inside. -/
lemma OfType.of_box (h : OfType type s) (wraps : Wraps "Box" type inner) :
    ∃ content, s = .boxed content ∧ content.OfType inner := by
  cases h with
  | plain _ noBox => exact (noBox _ wraps).elim
  | missing wraps' => exact (wraps.not_option _ wraps').elim
  | present wraps' => exact (wraps.not_option _ wraps').elim
  | boxed wraps' h => exact ⟨_, rfl, wraps'.unique wraps ▸ h⟩

end Stored

namespace Getter

variable {V : Type}

/-- What a getter gives: `some` of a reference for `& root . p` and `& * root . p`, and what `as_ref` and `as_deref` give.
There is no result where the expression does not fit the field. -/
def run : Getter → Stored V → Option (Option (Stored V))
  | reference, s => some (some s)
  | unboxed, .boxed s => some (some s)
  | unboxed, _ => none
  | present, .missing => some none
  | present, .present s => some (some s)
  | present, _ => none
  | presentUnboxed, .missing => some none
  | presentUnboxed, .present (.boxed s) => some (some s)
  | presentUnboxed, _ => none

end Getter

namespace Access

variable {V : Type}

/-- The way fits a field: one option and one box are taken off its type, the getter always fits, what it gives is of the
type that is left, and it gives nothing exactly when the option is empty. -/
structure Reaches (sized : TypeExpr → Prop) (field : String) (type : TypeExpr) (a : Access) : Prop where
  field : a.field = field
  strips : Strips sized type a.isOptional a.type
  fits {V : Type} {s : Stored V} (h : s.OfType type) : ∃ answer, a.getter.run s = some answer
  typed {V : Type} {s value : Stored V} (h : s.OfType type) (found : a.getter.run s = some (some value)) :
    value.OfType a.type
  missing {V : Type} {s : Stored V} (h : s.OfType type) : a.getter.run s = some none ↔ a.isOptional ∧ s = .missing

variable {sized : TypeExpr → Prop} {field : String} {type inner value : TypeExpr}

/-- Without option and box, the reference to the field fits it. -/
lemma reaches_reference (noOption : ∀ inner, ¬Wraps "Option" type inner) (unboxes : Unboxes sized type type) :
    Reaches sized field type ⟨field, type, .reference⟩ where
  field := rfl
  strips := .required noOption unboxes
  fits _ := ⟨_, rfl⟩
  typed h found := by
    cases found
    exact h
  missing h := by simp [Getter.run, isOptional]

/-- The reference into a box fits a field with a box around a sized type. -/
lemma reaches_unboxed (noOption : ∀ inner, ¬Wraps "Option" type inner) (inBox : Wraps "Box" type value)
    (isSized : sized value) : Reaches sized field type ⟨field, value, .unboxed⟩ where
  field := rfl
  strips := .required noOption (.boxed inBox isSized)
  fits h := by
    obtain ⟨content, rfl, -⟩ := h.of_box inBox
    exact ⟨_, rfl⟩
  typed h found := by
    obtain ⟨content, rfl, held⟩ := h.of_box inBox
    cases found
    exact held
  missing h := by
    obtain ⟨content, rfl, -⟩ := h.of_box inBox
    simp [Getter.run, isOptional]

/-- What `as_ref` gives fits an option of a type that is not unboxed. -/
lemma reaches_present (wraps : Wraps "Option" type inner) (unboxes : Unboxes sized inner inner) :
    Reaches sized field type ⟨field, inner, .present⟩ where
  field := rfl
  strips := .optional wraps unboxes
  fits h := by rcases h.of_option wraps with rfl | ⟨content, rfl, -⟩ <;> exact ⟨_, rfl⟩
  typed h found := by
    rcases h.of_option wraps with rfl | ⟨content, rfl, held⟩ <;> cases found
    exact held
  missing h := by rcases h.of_option wraps with rfl | ⟨content, rfl, -⟩ <;> simp [Getter.run, isOptional]

/-- What `as_deref` gives fits an option of a box around a sized type. -/
lemma reaches_presentUnboxed (wraps : Wraps "Option" type inner) (inBox : Wraps "Box" inner value)
    (isSized : sized value) : Reaches sized field type ⟨field, value, .presentUnboxed⟩ := by
  have shape {V : Type} {s : Stored V} (h : s.OfType type) :
      s = .missing ∨ ∃ content, s = .present (.boxed content) ∧ content.OfType value := by
    rcases h.of_option wraps with rfl | ⟨box, rfl, inOption⟩
    · exact .inl rfl
    · obtain ⟨content, rfl, held⟩ := inOption.of_box inBox
      exact .inr ⟨content, rfl, held⟩
  exact {
    field := rfl
    strips := .optional wraps (.boxed inBox isSized)
    fits h := by rcases shape h with rfl | ⟨content, rfl, -⟩ <;> exact ⟨_, rfl⟩
    typed h found := by
      rcases shape h with rfl | ⟨content, rfl, held⟩ <;> cases found
      exact held
    missing h := by rcases shape h with rfl | ⟨content, rfl, -⟩ <;> simp [Getter.run, isOptional] }

/-- The derived way to a box around a path other than `str` goes into the box. -/
lemma of_box (inBox : Wraps "Box" type inner) (path : inner.IsOtherPath) : of field type = ⟨field, inner, .unboxed⟩ := by
  have noOption : type.unwrap? "Option" = none := by
    rw [Option.eq_none_iff_forall_ne_some]
    exact fun inner' found => inBox.not_option inner' (unwrap?_eq_some_iff.1 found)
  rw [of, noOption, unbox?_eq_some_iff.2 ⟨inBox, path⟩]

/-- The derived way to a field fits it. -/
theorem reaches (field : String) (type : TypeExpr) : (of field type).Reaches IsOtherPath field type := by
  unfold of
  split
  case h_1 inner option =>
    have wraps := unwrap?_eq_some_iff.1 option
    split
    case h_1 value box =>
      obtain ⟨inBox, isSized⟩ := unbox?_eq_some_iff.1 box
      exact reaches_presentUnboxed wraps inBox isSized
    case h_2 box => exact reaches_present wraps (.bare (unbox?_eq_none_iff.1 box))
  case h_2 option =>
    have noOption (inner : TypeExpr) : ¬Wraps "Option" type inner := fun wraps => by
      cases option.symm.trans (unwrap?_eq_some_iff.2 wraps)
    split
    case h_1 value box =>
      obtain ⟨inBox, isSized⟩ := unbox?_eq_some_iff.1 box
      exact reaches_unboxed noOption inBox isSized
    case h_2 box => exact reaches_reference noOption (.bare (unbox?_eq_none_iff.1 box))

end Access

end FeatureLines.Derive
