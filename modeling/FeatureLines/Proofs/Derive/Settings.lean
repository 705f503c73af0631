import FeatureLines.Derive.Attributes
import FeatureLines.Proofs.Derive.Parse
import FeatureLines.Proofs.Results

/-!
# Settings in attributes

The grammar of what stands in the parentheses of an attribute, and the readers as its only inverses: the tokens of a
literal, of an integer and of a flag, the key of a setting, and settings with commas between them. That a list of
settings is read is shown once for every kind of setting: when the reader of one setting follows a grammar, the reader of
the list follows the grammar of lists, and what is read is what the settings do one after the other.
-/

/-- What gives no value gives an error. -/
lemma Except.exists_eq_error_iff {ε α : Type} {x : Except ε α} : (∃ e, x = .error e) ↔ ¬∃ a, x = .ok a := by
  cases x <;> simp

namespace List

/-- Every member of a list has a partner exactly when the list has a list of partners. -/
lemma exists_forall₂_iff {α β : Type} {R : α → β → Prop} {as : List α} :
    (∃ bs, Forall₂ R as bs) ↔ ∀ a ∈ as, ∃ b, R a b := by
  constructor
  · rintro ⟨bs, all⟩ a mem
    obtain ⟨b, -, related⟩ := all.exists_of_mem_left mem
    exact ⟨b, related⟩
  · intro each
    induction as with
    | nil => exact ⟨[], .nil⟩
    | cons a as ih =>
      obtain ⟨⟨b, related⟩, others⟩ := forall_mem_cons.1 each
      obtain ⟨bs, all⟩ := ih others
      exact ⟨b :: bs, .cons related all⟩

end List

namespace FeatureLines.Derive

open FeatureLines.Number Parse

variable {σ α : Type}

/-- A value that may be missing takes no tokens. -/
lemma run_liftM_eq_some_iff {x : Option α} {tokens rest : List Token} {a : α} :
    (liftM x : Parse α).run tokens = some (a, rest) ↔ x = some a ∧ rest = tokens := by
  cases x <;> simp [eq_comm]

/-! ## Operators of one character -/

/-- One character is there if it is the first one, whether another operator character is joined to it or not. -/
lemma afterOperator?_single {c : Char} {tokens rest : List Token} :
    afterOperator? [c] tokens = some rest ↔ ∃ joint, tokens = .punctuation c joint :: rest := by
  match tokens with
  | .punctuation d joint :: after => simp [afterOperator?, eq_comm]
  | [] => simp [afterOperator?]
  | .identifier _ :: _ => simp [afterOperator?]
  | .literal _ :: _ => simp [afterOperator?]
  | .group .. :: _ => simp [afterOperator?]

/-- An operator of one character takes that character. -/
lemma run_operator_single {op : String} {c : Char} (single : op.toList = [c]) {tokens taken rest : List Token} :
    (operator op).run tokens = some (taken, rest) ↔
      ∃ joint, taken = [.punctuation c joint] ∧ tokens = .punctuation c joint :: rest := by
  have length : op.length = 1 := by rw [← String.length_toList, single]; rfl
  rw [run_operator, single, length, Option.map_eq_some_iff]
  constructor
  · rintro ⟨after, found, eq⟩
    obtain ⟨joint, rfl⟩ := afterOperator?_single.1 found
    cases eq
    exact ⟨joint, rfl, rfl⟩
  · rintro ⟨joint, rfl, rfl⟩
    exact ⟨rest, afterOperator?_single.2 ⟨joint, rfl⟩, rfl⟩

/-! ## Literals -/

/-- The tokens of a literal. -/
inductive IsLiteral : List Token → Prop where
  | literal (text : String) : IsLiteral [.literal text]
  | flag (b : Bool) : IsLiteral [.identifier (if b then "true" else "false")]
  | negative (joint : Bool) {text : String} (digit : text.toList.head?.any Char.isDigit) :
    IsLiteral [.punctuation '-' joint, .literal text]

/-- A literal is taken as it stands. -/
lemma run_literal_eq_some_iff {tokens taken rest : List Token} :
    literal.run tokens = some (taken, rest) ↔ IsLiteral taken ∧ tokens = taken ++ rest := by
  rw [run_literal]
  constructor
  · intro ok
    obtain ⟨count, found, eq⟩ := Option.map_eq_some_iff.1 ok
    cases eq
    refine ⟨?_, (List.take_append_drop _ _).symm⟩
    unfold literalLength? at found
    split at found
    · cases found
      exact .literal _
    · split at found
      case isTrue flag =>
        cases found
        rcases flag with rfl | rfl
        · exact .flag true
        · exact .flag false
      · cases found
    · split at found
      case isTrue digit =>
        cases found
        exact .negative _ digit
      · cases found
    · cases found
  · rintro ⟨h, rfl⟩
    cases h with
    | literal => rfl
    | flag b => cases b <;> rfl
    | negative joint digit => simp [literalLength?, digit]

/-- A literal behind an equals sign. -/
lemma run_readLiteral_eq_some_iff {tokens taken rest : List Token} :
    readLiteral.run tokens = some (taken, rest) ↔
      IsLiteral taken ∧ ∃ joint, tokens = .punctuation '=' joint :: (taken ++ rest) := by
  unfold readLiteral
  rw [run_bind_eq_some_iff]
  constructor
  · rintro ⟨sign, middle, found, ok⟩
    obtain ⟨joint, rfl, rfl⟩ := (run_operator_single rfl).1 found
    obtain ⟨lit, rfl⟩ := run_literal_eq_some_iff.1 ok
    exact ⟨lit, joint, rfl⟩
  · rintro ⟨lit, joint, rfl⟩
    exact ⟨_, _, (run_operator_single rfl).2 ⟨joint, rfl, rfl⟩, run_literal_eq_some_iff.2 ⟨lit, rfl⟩⟩

/-- What a reader of literals takes from the tokens of one. -/
lemma run_readValue_eq_some_iff {value? : String → Option α} {tokens rest : List Token} {text : String} {a : α} :
    (readValue value?).run tokens = some ((text, a), rest) ↔
      value? text = some a ∧ ∃ joint, tokens = .punctuation '=' joint :: .literal text :: rest := by
  unfold readValue
  rw [run_bind_eq_some_iff]
  constructor
  · rintro ⟨taken, middle, found, ok⟩
    obtain ⟨lit, joint, rfl⟩ := run_readLiteral_eq_some_iff.1 found
    cases lit with
    | literal =>
      obtain ⟨v, after, read, same⟩ := run_bind_eq_some_iff.1 ok
      obtain ⟨value, rfl⟩ := run_liftM_eq_some_iff.1 read
      cases same
      exact ⟨value, joint, rfl⟩
    | flag b => cases ok
    | negative => cases ok
  · rintro ⟨value, joint, rfl⟩
    refine ⟨_, _, run_readLiteral_eq_some_iff.2 ⟨.literal text, joint, rfl⟩, ?_⟩
    simp [value]

/-- The tokens of an integer and its value. -/
inductive IsInteger : List Token → Int → Prop where
  | natural {text : String} {n : Nat} (value : naturalValue? text = some n) : IsInteger [.literal text] n
  | negative (joint : Bool) {text : String} {n : Nat} (value : naturalValue? text = some n) :
    IsInteger [.punctuation '-' joint, .literal text] (-n)

/-- A number starts with a digit. -/
lemma head_isDigit {text : String} {n : Nat} (value : naturalValue? text = some n) :
    text.toList.head?.any Char.isDigit := by
  unfold naturalValue? at value
  split at value
  case h_4 c rest eq =>
    rw [eq]
    by_contra h
    simp_all
  all_goals simp_all

/-- An integer stands behind an equals sign. -/
lemma run_readInteger_eq_some_iff {tokens taken rest : List Token} {i : Int} :
    readInteger.run tokens = some ((taken, i), rest) ↔
      IsInteger taken i ∧ ∃ joint, tokens = .punctuation '=' joint :: (taken ++ rest) := by
  unfold readInteger
  rw [run_bind_eq_some_iff]
  constructor
  · rintro ⟨read, middle, found, ok⟩
    obtain ⟨lit, joint, rfl⟩ := run_readLiteral_eq_some_iff.1 found
    cases lit with
    | literal =>
      obtain ⟨n, after, read, same⟩ := run_bind_eq_some_iff.1 ok
      obtain ⟨value, rfl⟩ := run_liftM_eq_some_iff.1 read
      cases same
      exact ⟨.natural value, joint, rfl⟩
    | flag b => cases ok
    | negative =>
      obtain ⟨n, after, read, same⟩ := run_bind_eq_some_iff.1 ok
      obtain ⟨value, rfl⟩ := run_liftM_eq_some_iff.1 read
      cases same
      exact ⟨.negative _ value, joint, rfl⟩
  · rintro ⟨integer, joint, rfl⟩
    cases integer with
    | natural value =>
      exact ⟨_, _, run_readLiteral_eq_some_iff.2 ⟨.literal _, joint, rfl⟩,
        run_bind_eq_some_iff.2 ⟨_, _, run_liftM_eq_some_iff.2 ⟨value, rfl⟩, rfl⟩⟩
    | negative sign value =>
      exact ⟨_, _, run_readLiteral_eq_some_iff.2 ⟨.negative sign (head_isDigit value), joint, rfl⟩,
        run_bind_eq_some_iff.2 ⟨_, _, run_liftM_eq_some_iff.2 ⟨value, rfl⟩, rfl⟩⟩

/-- A flag with its value behind an equals sign, or alone. -/
inductive IsFlag : List Token → Bool → List Token → Prop where
  | alone {rest : List Token} (stops : ∀ joint more, rest ≠ .punctuation '=' joint :: more) : IsFlag rest true rest
  | value (joint b : Bool) {rest : List Token} :
    IsFlag (.punctuation '=' joint :: .identifier (if b then "true" else "false") :: rest) b rest

/-- A flag is read exactly when it is written as one. -/
lemma run_readFlag_eq_some_iff {tokens rest : List Token} {b : Bool} :
    readFlag.run tokens = some (b, rest) ↔ IsFlag tokens b rest := by
  unfold readFlag
  rw [run_bind_eq_some_iff]
  constructor
  · rintro ⟨_, _, look, ok⟩
    rw [run_at?] at look
    cases look
    split at ok
    · obtain ⟨read, middle, found, value⟩ := run_bind_eq_some_iff.1 ok
      obtain ⟨lit, joint, rfl⟩ := run_readLiteral_eq_some_iff.1 found
      cases lit with
      | literal => cases value
      | flag b =>
        cases value
        have same : decide ((if b then "true" else "false") = "true") = b := by cases b <;> rfl
        rw [same]
        exact .value joint b
      | negative => cases value
    case isFalse bare =>
      cases ok
      refine .alone fun joint more eq => bare ?_
      rw [eq]
      rfl
  · intro flag
    refine ⟨_, _, run_at? _ _, ?_⟩
    cases flag with
    | alone stops =>
      rw [if_neg]
      · rfl
      · intro isSome
        obtain ⟨more, found⟩ := Option.isSome_iff_exists.1 isSome
        obtain ⟨joint, eq⟩ := afterOperator?_single.1 found
        exact stops joint more eq
    | value joint b => cases b <;> rfl

/-- The front of tokens is one integer at most. -/
lemma isInteger_unique {tokens tokens' rest rest' : List Token} {i i' : Int} (h : IsInteger tokens i)
    (h' : IsInteger tokens' i') (same : tokens ++ rest = tokens' ++ rest') : tokens = tokens' ∧ i = i' ∧ rest = rest' := by
  cases h <;> cases h' <;> simp_all

/-- What stands behind a key is one flag at most. -/
lemma isFlag_unique {after rest rest' : List Token} {b b' : Bool} (h : IsFlag after b rest) (h' : IsFlag after b' rest') :
    b = b' ∧ rest = rest' := by
  have eq := (run_readFlag_eq_some_iff.2 h).symm.trans (run_readFlag_eq_some_iff.2 h')
  cases eq
  exact ⟨rfl, rfl⟩

/-! ## Keys -/

/-- An operator that may be missing is taken when it is there. -/
lemma run_operator?_eq_some_iff {op : String} {tokens taken rest : List Token} :
    (operator? op).run tokens = some (taken, rest) ↔
      (operator op).run tokens = some (taken, rest) ∨
        afterOperator? op.toList tokens = none ∧ taken = [] ∧ rest = tokens := by
  unfold operator?
  rw [run_bind_eq_some_iff, run_operator]
  cases found : afterOperator? op.toList tokens with
  | none => simp [run_at?, found, eq_comm]
  | some after => simp [run_at?, found, run_operator]

/-- A key of one word. -/
lemma run_readKey_identifier {word : String} {rest : List Token} (single : afterOperator? "::".toList rest = none) :
    readKey.run (.identifier word :: rest) = some (some word, rest) := by
  unfold readKey
  refine run_bind_eq_some_iff.2 ⟨[], _, run_operator?_eq_some_iff.2 (.inr ⟨rfl, rfl, rfl⟩), ?_⟩
  refine run_bind_eq_some_iff.2 ⟨word, rest, rfl, ?_⟩
  refine run_bind_eq_some_iff.2 ⟨_, _, run_at? _ _, ?_⟩
  rw [single]
  rfl

/-- A key of one word is the first token. -/
lemma eq_of_run_readKey {tokens rest : List Token} {word : String} (ok : readKey.run tokens = some (some word, rest)) :
    tokens = .identifier word :: rest := by
  unfold readKey at ok
  obtain ⟨start, after, colons, ok⟩ := run_bind_eq_some_iff.1 ok
  obtain ⟨text, middle, first, ok⟩ := run_bind_eq_some_iff.1 ok
  obtain ⟨_, _, look, ok⟩ := run_bind_eq_some_iff.1 ok
  rw [run_at?] at look
  cases look
  split at ok
  · obtain ⟨_, _, _, ok⟩ := run_bind_eq_some_iff.1 ok
    obtain ⟨_, _, _, ok⟩ := run_bind_eq_some_iff.1 ok
    cases ok
  · split at ok
    case isTrue bare =>
      cases ok
      rcases run_operator?_eq_some_iff.1 colons with colons | ⟨-, -, rfl⟩
      · -- what is taken by an operator is not empty
        rw [run_operator, List.isEmpty_iff.1 bare] at colons
        obtain ⟨_, found, eq⟩ := Option.map_eq_some_iff.1 colons
        match tokens with
        | [] => cases found
        | _ :: _ => cases eq
      · exact run_anyWord_eq_some_iff.1 first
    · cases ok

/-! ## Lists of settings -/

/-- A setting ends here: nothing follows, or a comma. -/
inductive AtStop : List Token → Prop where
  | nil : AtStop []
  | comma (joint : Bool) (rest : List Token) : AtStop (.punctuation ',' joint :: rest)

/-- No path goes on where a setting ends. -/
lemma AtStop.afterOperator?_colons {rest : List Token} (stop : AtStop rest) : afterOperator? "::".toList rest = none := by
  cases stop <;> rfl

/-- A setting is its key and what is behind it. The first tokens are the setting, and the last ones follow it. -/
inductive Written (key : α → String) (behind : List Token → α → List Token → Prop) : List Token → α → List Token → Prop where
  | intro {after rest : List Token} {a : α} (h : behind after a rest) :
    Written key behind (.identifier (key a) :: after) a rest

/-- Settings with commas between them; there may be one behind the last. -/
inductive Listed (written : List Token → α → List Token → Prop) : List Token → List α → Prop where
  | nil : Listed written [] []
  | last {tokens : List Token} {a : α} (one : written tokens a []) : Listed written tokens [a]
  | cons {tokens rest : List Token} {joint : Bool} {a : α} {as : List α}
    (one : written tokens a (.punctuation ',' joint :: rest)) (more : Listed written rest as) :
    Listed written tokens (a :: as)

/-- A setting, from its key on. -/
def readSetting (read : σ → Option String → ParseSettings σ) (s : σ) : ParseSettings σ := do read s (← strict readKey)

/-- The reader of what is behind a key follows a grammar: it reads the valid settings, and nothing else. -/
structure Follows (read : σ → Option String → ParseSettings σ) (key : α → String)
    (behind : List Token → α → List Token → Prop) (valid : α → Prop) (apply : σ → α → σ) : Prop where
  suffix {after rest : List Token} {a : α} (h : behind after a rest) : rest <:+ after
  /-- A key is not taken for the first word of a path. -/
  single {after rest : List Token} {a : α} (h : behind after a rest) (stop : AtStop rest) :
    afterOperator? "::".toList after = none
  reads (s : σ) {after rest : List Token} {a : α} (h : behind after a rest) (ok : valid a) :
    (read s (some (key a))).run after = .ok (apply s a, rest)
  said {s s' : σ} {k : Option String} {after rest : List Token} (ok : (read s k).run after = .ok (s', rest)) :
    ∃ a, k = some (key a) ∧ behind after a rest ∧ valid a ∧ s' = apply s a
  unique {after rest rest' : List Token} {a a' : α} (h : behind after a rest) (h' : behind after a' rest')
    (same : key a = key a') : a = a' ∧ rest = rest'

/-- A parser that must succeed gives what the parser gives. -/
lemma run_strict_eq_ok_iff {p : Parse α} {tokens rest : List Token} {a : α} :
    (strict p).run tokens = .ok (a, rest) ↔ p.run tokens = some (a, rest) := by
  unfold strict StateT.run
  simp only
  split <;> simp_all

/-- Two parsers read tokens when the second reads what the first leaves. -/
lemma run_settings_bind_eq_ok_iff {β : Type} {p : ParseSettings α} {f : α → ParseSettings β} {tokens rest : List Token}
    {b : β} :
    (p >>= f).run tokens = .ok (b, rest) ↔
      ∃ a middle, p.run tokens = .ok (a, middle) ∧ (f a).run middle = .ok (b, rest) :=
  Except.bind_eq_ok.trans Prod.exists

/-- An equals sign. -/
lemma run_strict_equals_eq_ok_iff {tokens taken rest : List Token} :
    (strict (operator "=")).run tokens = .ok (taken, rest) ↔
      ∃ joint, taken = [.punctuation '=' joint] ∧ tokens = .punctuation '=' joint :: rest :=
  run_strict_eq_ok_iff.trans (run_operator_single rfl)

/-- A check takes no tokens. -/
lemma run_check_eq_ok_iff {x : Except DeriveError α} {tokens rest : List Token} {a : α} :
    (liftM x : ParseSettings α).run tokens = .ok (a, rest) ↔ x = .ok a ∧ rest = tokens := by
  cases x with
  | error e => exact ⟨fun h => (by cases h), fun h => (by cases h.1)⟩
  | ok b => exact ⟨fun h => by cases h; exact ⟨rfl, rfl⟩, fun ⟨h, h'⟩ => by cases h; cases h'; rfl⟩

/-- Something that is read and then put to use. -/
lemma run_strict_bind_pure_eq_ok_iff {β : Type} {p : Parse α} {f : α → β} {tokens rest : List Token} {b : β} :
    (do return f (← strict p) : ParseSettings β).run tokens = .ok (b, rest) ↔
      ∃ a, p.run tokens = some (a, rest) ∧ b = f a := by
  rw [run_settings_bind_eq_ok_iff]
  constructor
  · rintro ⟨a, middle, read, ok⟩
    cases ok
    exact ⟨a, run_strict_eq_ok_iff.1 read, rfl⟩
  · rintro ⟨a, read, rfl⟩
    exact ⟨a, rest, run_strict_eq_ok_iff.2 read, rfl⟩

lemma run_strict_atEnd (tokens : List Token) : (strict atEnd).run tokens = .ok (tokens.isEmpty, tokens) := rfl

/-- A list of settings has none, or a first one with nothing, or a comma and a list, behind it. -/
lemma run_readSettings_succ_eq_ok_iff {read : σ → Option String → ParseSettings σ} {fuel : Nat} {s s' : σ}
    {content rest : List Token} :
    (readSettings read s (fuel + 1)).run content = .ok (s', rest) ↔
      content = [] ∧ s' = s ∧ rest = [] ∨
        content ≠ [] ∧ ∃ first after, (readSetting read s).run content = .ok (first, after) ∧
          (after = [] ∧ s' = first ∧ rest = [] ∨
            ∃ joint more, after = .punctuation ',' joint :: more ∧
              (readSettings read first fuel).run more = .ok (s', rest)) := by
  have unfolded : readSettings read s (fuel + 1) = (do
      if ← strict atEnd then return s
      let first ← readSetting read s
      if ← strict atEnd then return first
      let _ ← strict (operator ",")
      readSettings read first fuel) := by
    rw [readSettings]
    unfold readSetting
    simp only [bind_assoc]
  rw [unfolded, run_settings_bind_eq_ok_iff]
  constructor
  · rintro ⟨_, _, look, ok⟩
    cases look
    cases content with
    | nil =>
      cases ok
      exact .inl ⟨rfl, rfl, rfl⟩
    | cons token tokens =>
      obtain ⟨first, after, read, ok⟩ := run_settings_bind_eq_ok_iff.1 ok
      refine .inr ⟨List.cons_ne_nil _ _, first, after, read, ?_⟩
      obtain ⟨_, _, look, ok⟩ := run_settings_bind_eq_ok_iff.1 ok
      cases look
      cases after with
      | nil =>
        cases ok
        exact .inl ⟨rfl, rfl, rfl⟩
      | cons next after =>
        obtain ⟨_, more, comma, ok⟩ := run_settings_bind_eq_ok_iff.1 ok
        obtain ⟨joint, -, eq⟩ := (run_operator_single rfl).1 (run_strict_eq_ok_iff.1 comma)
        exact .inr ⟨joint, more, eq, ok⟩
  · rintro (⟨rfl, rfl, rfl⟩ | ⟨ne, first, after, read, stop⟩)
    · exact ⟨_, _, rfl, rfl⟩
    · refine ⟨_, _, run_strict_atEnd _, ?_⟩
      rw [if_neg (by simpa using ne)]
      refine run_settings_bind_eq_ok_iff.2 ⟨_, _, read, run_settings_bind_eq_ok_iff.2 ⟨_, _, run_strict_atEnd _, ?_⟩⟩
      rcases stop with ⟨rfl, rfl, rfl⟩ | ⟨joint, more, rfl, ok⟩
      · rfl
      · exact run_settings_bind_eq_ok_iff.2
          ⟨_, _, run_strict_eq_ok_iff.2 ((run_operator_single rfl).2 ⟨joint, rfl, rfl⟩), ok⟩

namespace Follows

variable {read : σ → Option String → ParseSettings σ} {key : α → String} {behind : List Token → α → List Token → Prop}
  {valid : α → Prop} {apply : σ → α → σ}

/-- A setting has tokens. -/
lemma weightOf_lt (follows : Follows read key behind valid apply) {tokens rest : List Token} {a : α}
    (h : Written key behind tokens a rest) : Token.weightOf rest < Token.weightOf tokens := by
  cases h with
  | intro h =>
    have le := Token.weightOf_le_of_suffix (follows.suffix h)
    simp only [Token.weightOf, Token.weight]
    omega

/-- A valid setting that is written is read, and does what settings of its kind do. -/
lemma run_readSetting (follows : Follows read key behind valid apply) (s : σ) {tokens rest : List Token} {a : α}
    (h : Written key behind tokens a rest) (stop : AtStop rest) (ok : valid a) :
    (readSetting read s).run tokens = .ok (apply s a, rest) := by
  cases h with
  | intro h =>
    have start : readKey.run _ = some (some (key a), _) := run_readKey_identifier (follows.single h stop)
    exact run_settings_bind_eq_ok_iff.2 ⟨_, _, run_strict_eq_ok_iff.2 start, follows.reads s h ok⟩

/-- A setting that is read is written there, and is valid. -/
lemma written_of_run_readSetting (follows : Follows read key behind valid apply) {s s' : σ} {tokens rest : List Token}
    (ok : (readSetting read s).run tokens = .ok (s', rest)) :
    ∃ a, Written key behind tokens a rest ∧ valid a ∧ s' = apply s a := by
  obtain ⟨k, after, start, ok⟩ := run_settings_bind_eq_ok_iff.1 ok
  obtain ⟨a, rfl, h, isValid, eq⟩ := follows.said ok
  rw [eq_of_run_readKey (run_strict_eq_ok_iff.1 start)]
  exact ⟨a, .intro h, isValid, eq⟩

/-- The list is read from its first setting on, while the fuel is more than the tokens. -/
lemma run_readSettings_eq_ok_iff (follows : Follows read key behind valid apply) {fuel : Nat} {s s' : σ}
    {content rest : List Token} (enough : Token.weightOf content < fuel) :
    (readSettings read s fuel).run content = .ok (s', rest) ↔
      rest = [] ∧ ∃ settings, Listed (Written key behind) content settings ∧ (∀ a ∈ settings, valid a) ∧
        s' = settings.foldl apply s := by
  induction fuel generalizing s content with
  | zero => omega
  | succ fuel ih =>
    rw [run_readSettings_succ_eq_ok_iff]
    constructor
    · rintro (⟨rfl, rfl, rfl⟩ | ⟨-, first, after, read, stop⟩)
      · exact ⟨rfl, [], .nil, List.forall_mem_nil _, rfl⟩
      · obtain ⟨a, one, isValid, rfl⟩ := follows.written_of_run_readSetting read
        rcases stop with ⟨rfl, rfl, rfl⟩ | ⟨joint, more, rfl, ok⟩
        · exact ⟨rfl, [a], .last one, List.forall_mem_singleton.2 isValid, rfl⟩
        · have shorter := follows.weightOf_lt one
          rw [Token.weightOf] at shorter
          obtain ⟨rfl, as, listed, valids, rfl⟩ := (ih (by omega)).1 ok
          exact ⟨rfl, a :: as, .cons one listed, List.forall_mem_cons.2 ⟨isValid, valids⟩, rfl⟩
    · rintro ⟨rfl, settings, listed, valids, rfl⟩
      cases listed with
      | nil => exact .inl ⟨rfl, rfl, rfl⟩
      | last one =>
        refine .inr ⟨?_, _, _, follows.run_readSetting s one .nil (List.forall_mem_singleton.1 valids), .inl ⟨rfl, rfl, rfl⟩⟩
        rintro rfl
        exact Nat.not_lt_zero _ (follows.weightOf_lt one)
      | cons one listed =>
        obtain ⟨isValid, valids⟩ := List.forall_mem_cons.1 valids
        refine .inr ⟨?_, _, _, follows.run_readSetting s one (.comma _ _) isValid, .inr ⟨_, _, rfl, ?_⟩⟩
        · rintro rfl
          exact Nat.not_lt_zero _ (follows.weightOf_lt one)
        · have shorter := follows.weightOf_lt one
          rw [Token.weightOf] at shorter
          exact (ih (by omega)).2 ⟨rfl, _, listed, valids, rfl⟩

/-- What stands in the parentheses is read when it is a list of valid settings, and it does what they do in order. -/
theorem settingsOf_eq_ok_iff (follows : Follows read key behind valid apply) {s s' : σ} {content : List Token} :
    settingsOf read s content = .ok s' ↔
      ∃ settings, Listed (Written key behind) content settings ∧ (∀ a ∈ settings, valid a) ∧ s' = settings.foldl apply s := by
  have parsed : settingsOf read s content =
      ((readSettings read s (Token.weightOf content + 1)).run content).map (·.1) := rfl
  rw [parsed, Except.map_eq_ok]
  constructor
  · rintro ⟨⟨s', rest⟩, ok, rfl⟩
    exact ((follows.run_readSettings_eq_ok_iff (Nat.lt_succ_self _)).1 ok).2
  · intro said
    exact ⟨(s', []), (follows.run_readSettings_eq_ok_iff (Nat.lt_succ_self _)).2 ⟨rfl, said⟩, rfl⟩

/-- Tokens are written as one list of settings at most. -/
lemma listed_unique (follows : Follows read key behind valid apply) {content : List Token} {settings settings' : List α}
    (h : Listed (Written key behind) content settings) (h' : Listed (Written key behind) content settings') :
    settings = settings' := by
  have one {tokens rest rest' : List Token} {a a' : α} (h : Written key behind tokens a rest)
      (h' : Written key behind tokens a' rest') : a = a' ∧ rest = rest' := by
    generalize eq : tokens = tokens' at h'
    cases h with
    | intro h =>
      cases h' with
      | intro h' =>
        obtain ⟨same, rfl⟩ : key a = key a' ∧ _ := by simpa using eq
        exact follows.unique h h' same
  have ne {a : α} {rest : List Token} (h : Written key behind [] a rest) : False := by cases h
  induction h generalizing settings' with
  | nil =>
    cases h' with
    | nil => rfl
    | last one' => exact (ne one').elim
    | cons one' _ => exact (ne one').elim
  | last this =>
    cases h' with
    | nil => exact (ne this).elim
    | last one' => rw [(one this one').1]
    | cons one' _ => cases (one this one').2
  | cons this _ ih =>
    cases h' with
    | nil => exact (ne this).elim
    | last one' => cases (one this one').2
    | cons one' more' =>
      obtain ⟨rfl, eq⟩ := one this one'
      cases eq
      rw [ih more']

end Follows

end FeatureLines.Derive
