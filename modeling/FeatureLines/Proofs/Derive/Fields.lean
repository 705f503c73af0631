import Mathlib.Algebra.Ring.Int.Defs
import FeatureLines.Proofs.Derive.Settings

/-!
# What attributes say of a field

The settings of a field are one kind for each of its keys, with what may stand behind the key and which values are valid.
Attributes are read one after the other, each setting doing something to those before it, which comes to the same as that
of every kind the last one is in force (`FieldSettings.ofAttributes_eq_ok_iff`). Reading fails exactly when an attribute is
not written as settings, a setting is not valid, or two roles are said of the field
(`FieldSettings.exists_ofAttributes_eq_error_iff`).
-/

namespace FeatureLines.Derive

open FeatureLines.Number FeatureLines.Text Parse

/-- The roles that exclude each other. -/
inductive Role where
  | label
  | actions
  | skipped
deriving DecidableEq, Repr

namespace Role

def key : Role → String
  | label => "label"
  | actions => "action_dependent"
  | skipped => "skip"

end Role

/-- The settings that are flags. -/
inductive Flag where
  | enumerize
  | anchor
  | dictify
deriving DecidableEq, Repr

namespace Flag

def key : Flag → String
  | enumerize => "enumerize"
  | anchor => "anchor"
  | dictify => "dictify"

end Flag

/-- What the key of a setting stands for. -/
inductive SettingKind where
  | name
  | namespaceName
  | group
  | order
  | flag (f : Flag)
  | strings
  | marshaller
  | role (r : Role)
deriving DecidableEq, Repr

namespace SettingKind

def key : SettingKind → String
  | name => "name"
  | namespaceName => "namespace"
  | group => "group"
  | order => "order"
  | flag f => f.key
  | strings => "strings"
  | marshaller => "with"
  | role r => r.key

def all : List SettingKind :=
  [name, namespaceName, group, order, flag .enumerize, flag .anchor, flag .dictify, strings, marshaller, role .label,
    role .actions, role .skipped]

/-- A key stands for one kind only. -/
lemma key_injective : Function.Injective key := by
  have found (k : SettingKind) : all.find? (·.key = k.key) = some k := by
    cases k with
    | flag f => cases f <;> decide
    | role r => cases r <;> decide
    | _ => decide
  intro k k' same
  exact Option.some.inj ((found k).symm.trans (same ▸ found k'))

end SettingKind

/-- One setting of a field. A literal is kept as it is written where it is passed on so. -/
inductive FieldSetting where
  | name (text : String)
  | namespaceName (literal : String)
  | group (literal : String) (c : Char)
  | order (tokens : List Token) (i : Int)
  | flag (f : Flag) (b : Bool)
  | strings (text : String)
  | marshaller (path : List Token)
  | role (r : Role)

namespace FieldSetting

def kind : FieldSetting → SettingKind
  | name _ => .name
  | namespaceName _ => .namespaceName
  | group _ _ => .group
  | order _ _ => .order
  | flag f _ => .flag f
  | strings _ => .strings
  | marshaller _ => .marshaller
  | role r => .role r

def key (s : FieldSetting) : String := s.kind.key

/-- What stands behind the key of a setting: the first tokens are the value, and the last ones follow it. -/
inductive Behind : List Token → FieldSetting → List Token → Prop where
  | name (joint : Bool) {literal text : String} {rest : List Token} (value : stringValue? literal = some text) :
    Behind (.punctuation '=' joint :: .literal literal :: rest) (.name text) rest
  | namespaceName (joint : Bool) {literal text : String} {rest : List Token} (value : stringValue? literal = some text) :
    Behind (.punctuation '=' joint :: .literal literal :: rest) (.namespaceName literal) rest
  | group (joint : Bool) {literal : String} {c : Char} {rest : List Token} (value : characterValue? literal = some c) :
    Behind (.punctuation '=' joint :: .literal literal :: rest) (.group literal c) rest
  | order (joint : Bool) {tokens rest : List Token} {i : Int} (value : IsInteger tokens i) :
    Behind (.punctuation '=' joint :: (tokens ++ rest)) (.order tokens i) rest
  | flag (f : Flag) {after rest : List Token} {b : Bool} (value : IsFlag after b rest) : Behind after (.flag f b) rest
  | strings (joint : Bool) {literal text : String} {rest : List Token} (value : stringValue? literal = some text) :
    Behind (.punctuation '=' joint :: .literal literal :: rest) (.strings text) rest
  | marshaller (joint : Bool) {after path rest : List Token} (value : parsePath.run after = some (path, rest)) :
    Behind (.punctuation '=' joint :: after) (.marshaller path) rest
  | role (r : Role) {rest : List Token} : Behind rest (.role r) rest

/-- A group does not break lines, an order has 32 bits, and a way to make tokens is a known one. -/
def Valid : FieldSetting → Prop
  | group _ c => ¬(isBlank c ∨ c = '|' ∨ c = ':')
  | order _ i => -2 ^ 31 ≤ i ∧ i < 2 ^ 31
  | strings text => ∃ strings : StringProcessing, strings.name = text
  | _ => True

/-- The way to make tokens of a name. -/
def strings? (text : String) : Option StringProcessing :=
  [StringProcessing.split, .escape, .escapeAndIncludeName].find? (·.name = text)

/-- What a setting does to the ones before it. -/
def apply (s : FieldSettings) : FieldSetting → FieldSettings
  | name text => { s with name := some text }
  | namespaceName literal => { s with namespaceName := some literal }
  | group literal _ => { s with group := some literal }
  | order tokens _ => { s with order := some tokens }
  | flag .enumerize b => { s with enumerize := b }
  | flag .anchor b => { s with anchor := b }
  | flag .dictify b => { s with dictify := b }
  | strings text => { s with strings := strings? text <|> s.strings }
  | marshaller path => { s with marshaller := some path }
  | role .label => { s with isLabel := true }
  | role .actions => { s with isActions := true }
  | role .skipped => { s with isSkipped := true }

/-- An order is accepted exactly when it has 32 bits. -/
lemma checkOrder_eq_ok_iff {i : Int} : checkOrder i = .ok () ↔ -2 ^ 31 ≤ i ∧ i < 2 ^ 31 := by
  unfold checkOrder
  simp only
  split
  · simp; omega
  · split <;> simp <;> omega

/-- A setting is read only from what stands behind its key, only if it is valid, and it does what settings of its kind do. -/
lemma behind_of_run {s s' : FieldSettings} {k : Option String} {after rest : List Token}
    (ok : (readFieldSetting s k).run after = .ok (s', rest)) :
    ∃ a, k = some (key a) ∧ Behind after a rest ∧ Valid a ∧ s' = apply s a := by
  unfold readFieldSetting at ok
  split at ok
  · obtain ⟨⟨literal, text⟩, read, rfl⟩ := run_strict_bind_pure_eq_ok_iff.1 ok
    obtain ⟨value, joint, rfl⟩ := run_readValue_eq_some_iff.1 read
    exact ⟨.name text, rfl, .name joint value, trivial, rfl⟩
  · obtain ⟨⟨literal, text⟩, read, rfl⟩ := run_strict_bind_pure_eq_ok_iff.1 ok
    obtain ⟨value, joint, rfl⟩ := run_readValue_eq_some_iff.1 read
    exact ⟨.namespaceName literal, rfl, .namespaceName joint value, trivial, rfl⟩
  · obtain ⟨⟨literal, c⟩, middle, read, done⟩ := run_settings_bind_eq_ok_iff.1 ok
    obtain ⟨value, joint, rfl⟩ := run_readValue_eq_some_iff.1 (run_strict_eq_ok_iff.1 read)
    dsimp only at done
    split at done
    · cases done
    case isFalse plain =>
      cases done
      exact ⟨.group literal c, rfl, .group joint value, by simpa [Valid, needsEscape, and_assoc] using plain, rfl⟩
  · obtain ⟨⟨tokens, i⟩, middle, read, done⟩ := run_settings_bind_eq_ok_iff.1 ok
    obtain ⟨value, joint, rfl⟩ := run_readInteger_eq_some_iff.1 (run_strict_eq_ok_iff.1 read)
    obtain ⟨_, _, checked, last⟩ := run_settings_bind_eq_ok_iff.1 done
    obtain ⟨inRange, rfl⟩ := run_check_eq_ok_iff.1 checked
    cases last
    exact ⟨.order tokens i, rfl, .order joint value, checkOrder_eq_ok_iff.1 inRange, rfl⟩
  · obtain ⟨b, read, rfl⟩ := run_strict_bind_pure_eq_ok_iff.1 ok
    exact ⟨.flag .enumerize b, rfl, .flag _ (run_readFlag_eq_some_iff.1 read), trivial, rfl⟩
  · obtain ⟨b, read, rfl⟩ := run_strict_bind_pure_eq_ok_iff.1 ok
    exact ⟨.flag .anchor b, rfl, .flag _ (run_readFlag_eq_some_iff.1 read), trivial, rfl⟩
  · obtain ⟨b, read, rfl⟩ := run_strict_bind_pure_eq_ok_iff.1 ok
    exact ⟨.flag .dictify b, rfl, .flag _ (run_readFlag_eq_some_iff.1 read), trivial, rfl⟩
  · obtain ⟨⟨literal, text⟩, middle, read, done⟩ := run_settings_bind_eq_ok_iff.1 ok
    obtain ⟨value, joint, rfl⟩ := run_readValue_eq_some_iff.1 (run_strict_eq_ok_iff.1 read)
    dsimp only at done
    split at done
    case h_1 strings found =>
      cases done
      refine ⟨.strings text, rfl, .strings joint value, ⟨strings, by simpa using List.find?_some found⟩, ?_⟩
      rw [apply, strings?, found]
      rfl
    · cases done
  · obtain ⟨_, middle, sign, done⟩ := run_settings_bind_eq_ok_iff.1 ok
    obtain ⟨joint, -, rfl⟩ := run_strict_equals_eq_ok_iff.1 sign
    obtain ⟨path, read, rfl⟩ := run_strict_bind_pure_eq_ok_iff.1 done
    exact ⟨.marshaller path, rfl, .marshaller joint read, trivial, rfl⟩
  · cases ok
    exact ⟨.role .label, rfl, .role _, trivial, rfl⟩
  · cases ok
    exact ⟨.role .actions, rfl, .role _, trivial, rfl⟩
  · cases ok
    exact ⟨.role .skipped, rfl, .role _, trivial, rfl⟩
  · cases ok

/-- Every way to make tokens is found by its name. -/
lemma strings?_name (strings : StringProcessing) : strings? strings.name = some strings := by
  cases strings <;> decide

/-- A valid setting is read from what stands behind its key. -/
lemma run_readFieldSetting (s : FieldSettings) {after rest : List Token} {a : FieldSetting} (h : Behind after a rest)
    (ok : Valid a) : (readFieldSetting s (some (key a))).run after = .ok (apply s a, rest) := by
  have value {α : Type} {value? : String → Option α} {joint : Bool} {literal : String} {v : α} {rest : List Token}
      (found : value? literal = some v) :
      (strict (readValue value?)).run (.punctuation '=' joint :: .literal literal :: rest) = .ok ((literal, v), rest) :=
    run_strict_eq_ok_iff.2 (run_readValue_eq_some_iff.2 ⟨found, joint, rfl⟩)
  cases h with
  | name joint found => exact run_settings_bind_eq_ok_iff.2 ⟨_, _, value found, rfl⟩
  | namespaceName joint found => exact run_settings_bind_eq_ok_iff.2 ⟨_, _, value found, rfl⟩
  | group joint found =>
    refine run_settings_bind_eq_ok_iff.2 ⟨_, _, value found, ?_⟩
    dsimp only
    rw [if_neg (by simpa [Valid, needsEscape, and_assoc] using ok)]
    rfl
  | order joint integer =>
    refine run_settings_bind_eq_ok_iff.2
      ⟨_, _, run_strict_eq_ok_iff.2 (run_readInteger_eq_some_iff.2 ⟨integer, joint, rfl⟩), ?_⟩
    exact run_settings_bind_eq_ok_iff.2 ⟨_, _, run_check_eq_ok_iff.2 ⟨checkOrder_eq_ok_iff.2 ok, rfl⟩, rfl⟩
  | flag f value =>
    have read := run_strict_eq_ok_iff.2 (run_readFlag_eq_some_iff.2 value)
    cases f <;> exact run_settings_bind_eq_ok_iff.2 ⟨_, _, read, rfl⟩
  | strings joint found =>
    obtain ⟨strings, rfl⟩ := ok
    refine run_settings_bind_eq_ok_iff.2 ⟨_, _, value found, ?_⟩
    have known := strings?_name strings
    unfold strings? at known
    dsimp only
    rw [known, apply, strings?_name]
    rfl
  | marshaller joint path =>
    exact run_settings_bind_eq_ok_iff.2 ⟨_, _, run_strict_equals_eq_ok_iff.2 ⟨joint, rfl, rfl⟩,
      run_settings_bind_eq_ok_iff.2 ⟨_, _, run_strict_eq_ok_iff.2 path, rfl⟩⟩
  | role r => cases r <;> rfl

/-- The value of a setting is taken from the front. -/
lemma behind_suffix {after rest : List Token} {a : FieldSetting} (h : Behind after a rest) : rest <:+ after := by
  cases h with
  | name => exact ⟨[_, _], rfl⟩
  | namespaceName => exact ⟨[_, _], rfl⟩
  | group => exact ⟨[_, _], rfl⟩
  | order joint => exact (List.suffix_append _ _).trans (List.suffix_cons _ _)
  | flag f value =>
    cases value with
    | alone => exact List.suffix_rfl
    | value => exact ⟨[_, _], rfl⟩
  | strings => exact ⟨[_, _], rfl⟩
  | marshaller joint path => exact (TakesFront.parsePath.suffix path).trans (List.suffix_cons _ _)
  | role => exact List.suffix_rfl

/-- No path goes on behind a key that has its value there. -/
lemma afterOperator?_colons_of_behind {after rest : List Token} {a : FieldSetting} (h : Behind after a rest)
    (stop : AtStop rest) : afterOperator? "::".toList after = none := by
  cases h with
  | flag f value =>
    cases value with
    | alone => exact stop.afterOperator?_colons
    | value => rfl
  | role => exact stop.afterOperator?_colons
  | _ => rfl

/-- One key has one value behind it, which ends in one place. -/
lemma behind_unique {after rest rest' : List Token} {a a' : FieldSetting} (h : Behind after a rest)
    (h' : Behind after a' rest') (same : key a = key a') : a = a' ∧ rest = rest' := by
  have kinds : a.kind = a'.kind := SettingKind.key_injective same
  generalize eq : after = after' at h'
  cases h with
  | name _ value =>
    cases h' with
    | name _ value' => simp_all
    | _ => cases kinds
  | namespaceName _ value =>
    cases h' with
    | namespaceName _ value' => simp_all
    | _ => cases kinds
  | group _ value =>
    cases h' with
    | group _ value' => simp_all
    | _ => cases kinds
  | order _ value =>
    cases h' with
    | order _ value' =>
      obtain ⟨rfl, rfl, rfl⟩ := isInteger_unique value value' (List.cons.inj eq).2
      exact ⟨rfl, rfl⟩
    | _ => cases kinds
  | flag f value =>
    cases h' with
    | flag f' value' =>
      cases kinds
      subst eq
      obtain ⟨rfl, rfl⟩ := isFlag_unique value value'
      exact ⟨rfl, rfl⟩
    | _ => cases kinds
  | strings _ value =>
    cases h' with
    | strings _ value' => simp_all
    | _ => cases kinds
  | marshaller _ value =>
    cases h' with
    | marshaller _ value' => simp_all
    | _ => cases kinds
  | role r =>
    cases h' with
    | role r' =>
      cases kinds
      exact ⟨rfl, eq⟩
    | _ => cases kinds

/-- The reader of field settings follows the grammar of their values, so all that is shown of settings in general holds of
them. -/
lemma follows : Follows readFieldSetting key Behind Valid apply where
  suffix := behind_suffix
  single := afterOperator?_colons_of_behind
  reads := run_readFieldSetting
  said := behind_of_run
  unique := behind_unique

/-! ## The settings in force -/

/-- The last of the values that settings give to something. -/
def last {β : Type} (value? : FieldSetting → Option β) (all : List FieldSetting) : Option β := (all.filterMap value?).getLast?

/-- A later setting goes before the ones before it. -/
lemma last_append {β : Type} (value? : FieldSetting → Option β) (all : List FieldSetting) (a : FieldSetting) :
    last value? (all ++ [a]) = (value? a).or (last value? all) := by
  unfold last
  rw [List.filterMap_append, List.getLast?_append]
  congr 1
  cases found : value? a <;> simp [found]

/-- A flag is set as it was last said, and not set when nothing is said of it. -/
def isSet (f : Flag) (all : List FieldSetting) : Bool :=
  (last (fun | flag f' b => if f' = f then some b else none | _ => none) all).getD false

def isSaid (r : Role) (all : List FieldSetting) : Bool :=
  (last (fun | role r' => if r' = r then some true else none | _ => none) all).getD false

/-- Roles cannot be taken back: a role is in force when it was said at all. -/
lemma isSaid_iff {r : Role} {all : List FieldSetting} : isSaid r all ↔ role r ∈ all := by
  unfold isSaid
  induction all using List.reverseRecOn with
  | nil => simp [last]
  | append_singleton all a ih =>
    rw [last_append, List.mem_append, List.mem_singleton]
    cases a with
    | role r' =>
      by_cases same : r' = r
      · simp [same]
      · simp [same, ih, Ne.symm same]
    | _ => simp [ih]

/-- The settings in force are the last ones of each kind. -/
def inForce (isAnnotated : Bool) (all : List FieldSetting) : FieldSettings where
  isAnnotated := isAnnotated
  name := last (fun | name text => some text | _ => none) all
  namespaceName := last (fun | namespaceName literal => some literal | _ => none) all
  group := last (fun | group literal _ => some literal | _ => none) all
  order := last (fun | order tokens _ => some tokens | _ => none) all
  enumerize := isSet .enumerize all
  anchor := isSet .anchor all
  dictify := isSet .dictify all
  strings := last (fun | strings text => strings? text | _ => none) all
  marshaller := last (fun | marshaller path => some path | _ => none) all
  isLabel := isSaid .label all
  isActions := isSaid .actions all
  isSkipped := isSaid .skipped all

/-- A further setting comes into force as it is applied. -/
lemma inForce_append (isAnnotated : Bool) (all : List FieldSetting) (a : FieldSetting) :
    inForce isAnnotated (all ++ [a]) = apply (inForce isAnnotated all) a := by
  unfold inForce isSet isSaid
  simp only [last_append]
  cases a with
  | flag f => cases f <;> rfl
  | role r => cases r <;> rfl
  | strings text => cases h : strings? text <;> simp [apply, h]
  | _ => rfl

/-- What settings do one after the other is that they come into force. -/
lemma foldl_apply_inForce (isAnnotated : Bool) (all more : List FieldSetting) :
    more.foldl apply (inForce isAnnotated all) = inForce isAnnotated (all ++ more) := by
  induction more generalizing all with
  | nil => rw [List.append_nil, List.foldl_nil]
  | cons a more ih => rw [List.foldl_cons, ← inForce_append, ih, List.append_assoc, List.singleton_append]

end FieldSetting

/-- What an attribute says: nothing when it stands alone, else the settings in its parentheses. -/
inductive Attribute.Says : Attribute → List FieldSetting → Prop where
  | word (name : Option String) : Says ⟨name, .word⟩ []
  | list (name : Option String) {content : List Token} {settings : List FieldSetting}
    (listed : Listed (Written FieldSetting.key FieldSetting.Behind) content settings) : Says ⟨name, .list content⟩ settings

/-- An attribute says one thing only. -/
lemma Attribute.Says.unique {a : Attribute} {settings settings' : List FieldSetting} (h : a.Says settings)
    (h' : a.Says settings') : settings = settings' := by
  cases h with
  | word => cases h'; rfl
  | list name listed =>
    cases h' with
    | list _ listed' => exact FieldSetting.follows.listed_unique listed listed'

namespace FieldSettings

open FieldSetting

/-- Attributes are read when each says something and all that is said is valid. -/
lemma readAll_inForce_eq_ok_iff {attributes : List Attribute} {isAnnotated : Bool} {before : List FieldSetting}
    {s : FieldSettings} :
    readAll (inForce isAnnotated before) attributes = .ok s ↔
      ∃ parts, List.Forall₂ Attribute.Says attributes parts ∧ (∀ a ∈ parts.flatten, a.Valid) ∧
        s = inForce (isAnnotated || !attributes.isEmpty) (before ++ parts.flatten) := by
  induction attributes generalizing isAnnotated before with
  | nil => simp [readAll, eq_comm]
  | cons a attributes ih =>
    have marked : { inForce isAnnotated before with isAnnotated := true } = inForce true before := rfl
    obtain ⟨name, form⟩ := a
    rw [readAll, marked]
    constructor
    · intro ok
      cases form with
      | word =>
        obtain ⟨parts, each, valid, rfl⟩ := ih.1 ok
        exact ⟨[] :: parts, .cons (.word name) each, valid, by simp⟩
      | list content =>
        obtain ⟨middle, read, rest⟩ := Except.bind_eq_ok.1 ok
        obtain ⟨settings, listed, valid, rfl⟩ := follows.settingsOf_eq_ok_iff.1 read
        rw [foldl_apply_inForce] at rest
        obtain ⟨parts, each, valids, rfl⟩ := ih.1 rest
        refine ⟨settings :: parts, .cons (.list name listed) each, ?_, by simp⟩
        rw [List.flatten_cons]
        exact List.forall_mem_append.2 ⟨valid, valids⟩
      | value => cases ok
    · rintro ⟨parts, each, valid, rfl⟩
      cases each with
      | cons first each =>
        rw [List.flatten_cons] at valid ⊢
        obtain ⟨valid, valids⟩ := List.forall_mem_append.1 valid
        cases first with
        | word => exact ih.2 ⟨_, each, valids, by simp⟩
        | list _ listed =>
          refine Except.bind_eq_ok.2 ⟨_, follows.settingsOf_eq_ok_iff.2 ⟨_, listed, valid, rfl⟩, ?_⟩
          rw [foldl_apply_inForce]
          exact ih.2 ⟨_, each, valids, by simp⟩

/-- What all attributes of a field say together. -/
def Said (attributes : List Attribute) (all : List FieldSetting) : Prop :=
  ∃ parts, List.Forall₂ Attribute.Says (attributes.filter Attribute.isOurs) parts ∧ all = parts.flatten

/-- Roles exclude each other. -/
def OneRole (all : List FieldSetting) : Prop := ∀ r r', role r ∈ all → role r' ∈ all → r = r'

/-- No two of the three roles are set. -/
lemma hasOneRole_iff (s : FieldSettings) :
    s.hasOneRole ↔
      ¬(s.isLabel ∧ s.isActions) ∧ ¬(s.isLabel ∧ s.isSkipped) ∧ ¬(s.isActions ∧ s.isSkipped) := by
  unfold hasOneRole
  cases s.isLabel <;> cases s.isActions <;> cases s.isSkipped <;> simp

/-- The settings in force have at most one role exactly when no two different roles were said. -/
lemma hasOneRole_inForce {isAnnotated : Bool} {all : List FieldSetting} :
    (inForce isAnnotated all).hasOneRole ↔ OneRole all := by
  rw [hasOneRole_iff]
  simp only [inForce, isSaid_iff]
  constructor
  · rintro ⟨first, second, third⟩ r r' mem mem'
    cases r <;> cases r' <;> simp_all
  · intro one
    exact ⟨fun h => (nomatch one _ _ h.1 h.2), fun h => (nomatch one _ _ h.1 h.2), fun h => (nomatch one _ _ h.1 h.2)⟩

/-- The attributes of a field are read when each of those that are for features says something, all that is said is
valid, and no two roles are said. Then the last setting of each kind is in force. -/
theorem ofAttributes_eq_ok_iff {attributes : List Attribute} {s : FieldSettings} :
    ofAttributes attributes = .ok s ↔
      ∃ all, Said attributes all ∧ (∀ a ∈ all, a.Valid) ∧ OneRole all ∧
        s = inForce (!(attributes.filter Attribute.isOurs).isEmpty) all := by
  unfold ofAttributes
  have start : ({} : FieldSettings) = inForce false [] := rfl
  rw [start, Except.bind_eq_ok]
  constructor
  · rintro ⟨read, ok, checked⟩
    obtain ⟨parts, each, valid, rfl⟩ := readAll_inForce_eq_ok_iff.1 ok
    split at checked
    case isTrue one =>
      cases checked
      exact ⟨parts.flatten, ⟨parts, each, rfl⟩, valid, hasOneRole_inForce.1 one, by simp⟩
    · cases checked
  · rintro ⟨all, ⟨parts, each, rfl⟩, valid, one, rfl⟩
    refine ⟨_, readAll_inForce_eq_ok_iff.2 ⟨parts, each, valid, rfl⟩, ?_⟩
    rw [if_pos]
    · simp; rfl
    · exact hasOneRole_inForce.2 one

/-- A setting is said by an attribute. -/
def Mentions (attributes : List Attribute) (s : FieldSetting) : Prop :=
  ∃ a ∈ attributes, a.isOurs ∧ ∃ settings, a.Says settings ∧ s ∈ settings

/-- What is wrong with the attributes of a field. -/
inductive Fault (attributes : List Attribute) : Prop where
  /-- An attribute does not say anything: it is not written as settings with known keys. -/
  | malformed {a : Attribute} (mem : a ∈ attributes) (ours : a.isOurs) (silent : ∀ settings, ¬a.Says settings)
  | invalid {s : FieldSetting} (said : Mentions attributes s) (invalid : ¬s.Valid)
  | roles {r r' : Role} (ne : r ≠ r') (said : Mentions attributes (role r)) (said' : Mentions attributes (role r'))

/-- What is said is what the attributes mention. -/
lemma Said.mem_iff {attributes : List Attribute} {all : List FieldSetting} (said : Said attributes all) (s : FieldSetting) :
    s ∈ all ↔ Mentions attributes s := by
  obtain ⟨parts, each, rfl⟩ := said
  rw [List.mem_flatten]
  constructor
  · rintro ⟨settings, mem, memS⟩
    obtain ⟨a, memA, saying⟩ := each.exists_of_mem_right mem
    obtain ⟨memA, ours⟩ := List.mem_filter.1 memA
    exact ⟨a, memA, ours, settings, saying, memS⟩
  · rintro ⟨a, memA, ours, settings, saying, memS⟩
    obtain ⟨settings', mem, saying'⟩ := each.exists_of_mem_left (List.mem_filter.2 ⟨memA, ours⟩)
    exact ⟨settings', mem, saying.unique saying' ▸ memS⟩

/-- If each attribute says something, they say something together. -/
lemma exists_said {attributes : List Attribute} (each : ∀ a ∈ attributes, a.isOurs → ∃ settings, a.Says settings) :
    ∃ all, Said attributes all := by
  have each (a) (mem : a ∈ attributes.filter Attribute.isOurs) : ∃ settings, a.Says settings :=
    each a (List.mem_filter.1 mem).1 (List.mem_filter.1 mem).2
  obtain ⟨parts, each⟩ := List.exists_forall₂_iff.2 each
  exact ⟨parts.flatten, parts, each, rfl⟩

/-- The attributes of a field are refused when something is wrong with them. -/
theorem exists_ofAttributes_eq_error_iff {attributes : List Attribute} :
    (∃ e, ofAttributes attributes = .error e) ↔ Fault attributes := by
  constructor
  · rintro ⟨e, failed⟩
    by_contra faultless
    obtain ⟨all, said⟩ : ∃ all, Said attributes all := by
      refine exists_said fun a mem ours => ?_
      by_contra silent
      exact faultless (.malformed mem ours fun settings saying => silent ⟨settings, saying⟩)
    have valid (s) (mem : s ∈ all) : s.Valid := by
      by_contra invalid
      exact faultless (.invalid ((said.mem_iff s).1 mem) invalid)
    have one : OneRole all := by
      intro r r' mem mem'
      by_contra ne
      exact faultless (.roles ne ((said.mem_iff _).1 mem) ((said.mem_iff _).1 mem'))
    rw [ofAttributes_eq_ok_iff.2 ⟨all, said, valid, one, rfl⟩] at failed
    cases failed
  · intro fault
    cases read : ofAttributes attributes with
    | error e => exact ⟨e, rfl⟩
    | ok s =>
      exfalso
      obtain ⟨all, said, valid, one, -⟩ := ofAttributes_eq_ok_iff.1 read
      cases fault with
      | malformed mem ours silent =>
        obtain ⟨parts, each, -⟩ := said
        obtain ⟨settings, -, saying⟩ := each.exists_of_mem_left (List.mem_filter.2 ⟨mem, ours⟩)
        exact silent settings saying
      | invalid mentioned invalid => exact invalid (valid _ ((said.mem_iff _).2 mentioned))
      | roles ne mentioned mentioned' => exact ne (one _ _ ((said.mem_iff _).2 mentioned) ((said.mem_iff _).2 mentioned'))

end FieldSettings

end FeatureLines.Derive
