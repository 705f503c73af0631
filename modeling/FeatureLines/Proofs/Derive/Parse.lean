import Mathlib.Data.List.Infix
import FeatureLines.Derive.Syntax

/-!
# Parsers take tokens from the front

What a parser leaves is the end of the tokens that it was given. This goes through sequences, choices and loops, so the
whole grammar of types and expressions has it: its readers call each other with less fuel, and the induction is on the
fuel, for all of them at once. Hence no reader can put tokens back, and a list of settings gets shorter by each of them.
-/

namespace FeatureLines.Derive

namespace Parse

variable {α β : Type}

/-- What a parser leaves is the end of what it was given. -/
class TakesFront (p : Parse α) : Prop where
  suffix : ∀ {tokens rest : List Token} {a : α}, p.run tokens = some (a, rest) → rest <:+ tokens

/-! ## Single steps -/

/-- A sequence of two parsers succeeds when the second one does on what the first one leaves. -/
lemma run_bind_eq_some_iff {p : Parse α} {f : α → Parse β} {tokens rest : List Token} {b : β} :
    (p >>= f).run tokens = some (b, rest) ↔
      ∃ a middle, p.run tokens = some (a, middle) ∧ (f a).run middle = some (b, rest) :=
  Option.bind_eq_some_iff.trans Prod.exists

/-- Looking for an operator leaves the tokens as they are. -/
lemma run_at? (op : String) (tokens : List Token) :
    (at? op).run tokens = some ((afterOperator? op.toList tokens).isSome, tokens) := rfl

/-- A word is taken when the first token is one. -/
lemma run_anyWord_eq_some_iff {tokens rest : List Token} {text : String} :
    anyWord.run tokens = some (text, rest) ↔ tokens = .identifier text :: rest := by
  constructor
  · intro ok
    match tokens with
    | .identifier _ :: _ => cases ok; rfl
    | [] => cases ok
    | .punctuation .. :: _ => cases ok
    | .literal _ :: _ => cases ok
    | .group .. :: _ => cases ok
  · rintro rfl
    rfl

/-- An operator takes as many tokens as it has characters. -/
lemma run_operator (op : String) (tokens : List Token) :
    (operator op).run tokens = (afterOperator? op.toList tokens).map fun rest => (tokens.take op.length, rest) := by
  unfold operator
  cases found : afterOperator? op.toList tokens <;> simp [found]

/-- The number of tokens of the literal in front. -/
def literalLength? : List Token → Option Nat
  | .literal _ :: _ => some 1
  | .identifier text :: _ => if text = "true" ∨ text = "false" then some 1 else none
  | .punctuation '-' _ :: .literal text :: _ => if text.toList.head?.any Char.isDigit then some 2 else none
  | _ => none

/-- No literal is in front if the first tokens have none of its three forms. -/
lemma run_atLiteral_of_not {tokens : List Token} (literal : ∀ text rest, tokens = .literal text :: rest → False)
    (word : ∀ text rest, tokens = .identifier text :: rest → False)
    (number : ∀ joint text rest, tokens = .punctuation '-' joint :: .literal text :: rest → False) :
    atLiteral.run tokens = some (false, tokens) := by
  revert literal word number
  change _ → _ → _ → (match tokens with
    | .literal _ :: _ => pure true
    | .identifier text :: _ => pure (text = "true" || text = "false")
    | .punctuation '-' _ :: .literal text :: _ => pure (text.toList.head?.any Char.isDigit)
    | _ => pure false : Parse Bool).run tokens = _
  intro literal word number
  split
  case h_1 => exact (literal _ _ rfl).elim
  case h_2 => exact (word _ _ rfl).elim
  case h_3 => exact (number _ _ _ rfl).elim
  case h_4 => rfl

/-- A literal takes one token, or two if it is a number with a sign. -/
lemma run_literal (tokens : List Token) :
    literal.run tokens = (literalLength? tokens).map fun count => (tokens.take count, tokens.drop count) := by
  unfold literalLength?
  split
  case h_1 => rfl
  case h_2 text _ =>
    by_cases boolean : text = "true" ∨ text = "false"
    · rw [if_pos boolean]
      rcases boolean with rfl | rfl <;> rfl
    · have plain : (text = "true" || text = "false") = false := by simpa using boolean
      rw [if_neg boolean]
      change (if (text = "true" || text = "false") = true then _ else failure : Parse _).run _ = none
      rw [plain]
      rfl
  case h_3 text _ =>
    cases digit : text.toList.head?.any Char.isDigit
    · change (if text.toList.head?.any Char.isDigit = true then _ else failure : Parse _).run _ = none
      rw [digit]
      rfl
    · change (if text.toList.head?.any Char.isDigit = true then _ else failure : Parse _).run _ = _
      rw [digit]
      rfl
  case h_4 literal boolean number =>
    exact Option.eq_none_iff_forall_ne_some.2 fun _ taken => by
      obtain ⟨_, _, looking, found⟩ := run_bind_eq_some_iff.1 taken
      cases (run_atLiteral_of_not literal boolean number).symm.trans looking
      cases found

namespace TakesFront

variable {p q : Parse α}

/-- A parser that takes nothing. -/
instance pure (a : α) : TakesFront (Pure.pure a : Parse α) where
  suffix ok := by
    cases ok
    exact List.suffix_rfl

/-- A parser that fails leaves no tokens at all. -/
instance failure : TakesFront (failure : Parse α) where
  suffix ok := by cases ok

/-- In a sequence, what the second parser leaves is an end of what the first one left. -/
instance bind {f : α → Parse β} [first : p.TakesFront] [next : ∀ a, (f a).TakesFront] : (p >>= f).TakesFront where
  suffix ok := by
    obtain ⟨a, middle, found, ok⟩ := run_bind_eq_some_iff.1 ok
    exact ((next a).suffix ok).trans (first.suffix found)

/-- Nothing is taken when the result is changed. -/
instance map (f : α → β) [h : p.TakesFront] : (f <$> p).TakesFront where
  suffix ok := by
    obtain ⟨⟨a, middle⟩, found, ok⟩ := Option.bind_eq_some_iff.1 ok
    cases ok
    exact h.suffix found

/-- Either parser of a choice takes from the front, so the chosen one does. -/
instance ite {c : Prop} [Decidable c] [first : p.TakesFront] [second : q.TakesFront] :
    TakesFront (if c then p else q) := by
  split
  · exact first
  · exact second

/-- The tokens can be looked at. -/
instance get : TakesFront (get : Parse (List Token)) where
  suffix ok := by
    cases ok
    exact List.suffix_rfl

/-- A loop over some items. -/
instance loop {σ : Type} {items : List β} {body : β → σ → Parse (ForInStep σ)} {state : σ}
    [each : ∀ item state, (body item state).TakesFront] : (forIn items state body).TakesFront := by
  induction items generalizing state with
  | nil => exact pure _
  | cons item items ih =>
    rw [List.forIn_cons]
    refine @bind _ _ _ _ (each item state) fun next => ?_
    cases next with
    | done state => exact pure _
    | yield state => exact ih

/-- A look at the tokens takes none. -/
lemma looking {look : List Token → Parse α} (answers : ∀ tokens, ∃ a, look tokens = Pure.pure a) :
    TakesFront (do look (← MonadState.get)) := by
  refine @bind _ _ _ _ get fun tokens => ?_
  obtain ⟨a, eq⟩ := answers tokens
  rw [eq]
  exact pure a

/-- A test for an operator only looks. -/
instance at? (op : String) : (at? op).TakesFront := looking fun _ => ⟨_, rfl⟩

/-- A test for the end of the tokens only looks. -/
instance atEnd : atEnd.TakesFront := looking fun _ => ⟨_, rfl⟩

/-- A test for a word only looks. -/
instance atWord (word : String) : (atWord word).TakesFront := looking fun _ => by split <;> exact ⟨_, rfl⟩

/-- A test for one of some words only looks. -/
instance atWords (words : List String) : (atWords words).TakesFront := looking fun _ => by split <;> exact ⟨_, rfl⟩

/-- A test for any word only looks. -/
instance atAnyWord : atAnyWord.TakesFront := looking fun _ => by split <;> exact ⟨_, rfl⟩

/-- A test for a group only looks. -/
instance atGroup (d : Delimiter) : (atGroup d).TakesFront := looking fun _ => by split <;> exact ⟨_, rfl⟩

/-- A test for a lifetime only looks. -/
instance atLifetime : atLifetime.TakesFront := looking fun _ => by split <;> exact ⟨_, rfl⟩

/-- A test for a literal only looks, at two tokens if the first is a sign. -/
instance atLiteral : atLiteral.TakesFront := looking fun _ => by split <;> exact ⟨_, rfl⟩

/-- A test for a name is one for any word and one for the keywords. -/
instance atName : atName.TakesFront := bind

/-- What is behind an operator is an end of the tokens, one character and one token at a time. -/
lemma suffix_of_afterOperator? {op : List Char} {tokens rest : List Token} (ok : afterOperator? op tokens = some rest) :
    rest <:+ tokens := by
  fun_induction afterOperator? op tokens with
  | case1 => cases ok; exact List.suffix_rfl
  | case2 => cases ok; exact List.suffix_cons _ _
  | case3 => cases ok
  | case4 _ _ _ _ _ _ _ ih => exact (ih ok).trans (List.suffix_cons _ _)
  | case5 => cases ok
  | case6 => cases ok

/-- An operator is taken from the front. -/
instance operator (op : String) : (operator op).TakesFront where
  suffix ok := by
    rw [run_operator] at ok
    obtain ⟨after, found, eq⟩ := Option.map_eq_some_iff.1 ok
    cases eq
    exact suffix_of_afterOperator? found

/-- An operator may be missing, and then nothing is taken. -/
instance operator? (op : String) : (operator? op).TakesFront := bind

/-- A word is the first token. -/
instance anyWord : anyWord.TakesFront where
  suffix ok := by
    rw [run_anyWord_eq_some_iff.1 ok]
    exact List.suffix_cons _ _

/-- An expected word is any word that is compared afterwards. -/
instance word (expected : String) : (word expected).TakesFront := bind

/-- An expected word may be missing, and then nothing is taken. -/
instance word? (expected : String) : (word? expected).TakesFront := bind

/-- A name is a word that is looked for among the keywords first. -/
instance name : name.TakesFront := bind

/-- A group is one token. -/
instance anyGroup : anyGroup.TakesFront where
  suffix {tokens} _ _ ok := by
    match tokens with
    | .group .. :: _ => cases ok; exact List.suffix_cons _ _
    | [] => cases ok
    | .punctuation .. :: _ => cases ok
    | .literal _ :: _ => cases ok
    | .identifier _ :: _ => cases ok

/-- A group is taken when its delimiters are the expected ones. -/
lemma run_group (d other : Delimiter) (content after : List Token) :
    (Parse.group d).run (.group other content :: after) = if other = d then some (content, after) else none := by
  change (if other = d then _ else Alternative.failure : Parse _).run _ = _
  by_cases same : other = d
  · rw [if_pos same, if_pos same]
    rfl
  · rw [if_neg same, if_neg same]
    rfl

/-- A group with expected delimiters is one token as well. -/
instance group (d : Delimiter) : (group d).TakesFront where
  suffix {tokens} _ _ ok := by
    match tokens with
    | .group other content :: after =>
      rw [run_group] at ok
      split at ok
      · cases ok
        exact List.suffix_cons _ _
      · cases ok
    | [] => cases ok
    | .punctuation .. :: _ => cases ok
    | .literal _ :: _ => cases ok
    | .identifier _ :: _ => cases ok

/-- Some tokens from the front are dropped. -/
lemma drop (count : Nat) (a : List Token → α) :
    TakesFront (do let tokens ← MonadState.get; set (tokens.drop count); return a tokens : Parse α) where
  suffix ok := by
    cases ok
    exact List.drop_suffix _ _

/-- A lifetime is two tokens, the sign and the word. -/
instance lifetime : lifetime.TakesFront := @bind _ _ _ _ _ fun _ => @ite _ _ _ _ _ (drop 2 _) _

/-- A literal is as many tokens as it has. -/
instance literal : literal.TakesFront where
  suffix ok := by
    rw [run_literal] at ok
    obtain ⟨count, -, eq⟩ := Option.map_eq_some_iff.1 ok
    cases eq
    exact List.drop_suffix _ _

/-- A parser that is run on the content of a group leaves the tokens around it alone. -/
instance whole (p : Parse α) (content : List Token) : (p.whole content).TakesFront where
  suffix ok := by
    obtain ⟨⟨a, middle⟩, found, ok⟩ := Option.bind_eq_some_iff.1 ok
    simp only at ok
    split at ok
    · cases ok
      exact List.suffix_rfl
    · cases ok

/-- A test further on takes nothing. -/
instance ahead (count : Nat) (p : Parse Bool) : (ahead count p).TakesFront where
  suffix ok := by
    unfold Parse.ahead StateT.run at ok
    simp only at ok
    split at ok
    all_goals
      cases ok
      exact List.suffix_rfl

/-- The tokens up to a comma are taken, and the comma is left. -/
instance upToComma : upToComma.TakesFront where
  suffix ok := by
    cases ok
    exact List.dropWhile_suffix _

/-- A test for a bound is one for each of its beginnings. -/
instance atBound : atBound.TakesFront := bind

/-! ## The grammar of types -/

/-- The readers of the grammar take tokens from the front. -/
class Readers (fuel : Nat) : Prop where
  type (plus : Bool) : (readType plus fuel).TakesFront
  array : (readArray fuel).TakesFront
  parenthesized (plus : Bool) : (readParenthesized plus fuel).TakesFront
  tuple : (readTuple fuel).TakesFront
  moreTypes : (readMoreTypes fuel).TakesFront
  binder : (readBinder fuel).TakesFront
  lifetimes : (readLifetimes fuel).TakesFront
  function : (readFunction fuel).TakesFront
  parameters : (readParameters fuel).TakesFront
  result : (readResult fuel).TakesFront
  path (inExpression mayQualify : Bool) : (readPath inExpression mayQualify fuel).TakesFront
  segments (inExpression : Bool) : (readSegments inExpression fuel).TakesFront
  segment (inExpression : Bool) : (readSegment inExpression fuel).TakesFront
  angles : (readAngles fuel).TakesFront
  arguments : (readArguments fuel).TakesFront
  argument : (readArgument fuel).TakesFront
  bounds (plus : Bool) : (readBounds plus fuel).TakesFront
  moreBounds (strict : Bool) : (readMoreBounds strict fuel).TakesFront
  bound : (readBound fuel).TakesFront
  trait : (readTrait fuel).TakesFront
  types : (readTypes fuel).TakesFront
  expression : (readExpression fuel).TakesFront
  operation : (readOperation fuel).TakesFront
  operand : (readOperand fuel).TakesFront
  suffixes : (readSuffixes fuel).TakesFront
  expressions : (readExpressions fuel).TakesFront

attribute [instance] Readers.type Readers.array Readers.parenthesized Readers.tuple Readers.moreTypes Readers.binder
  Readers.lifetimes Readers.function Readers.parameters Readers.result Readers.path Readers.segments Readers.segment
  Readers.angles Readers.arguments Readers.argument Readers.bounds Readers.moreBounds Readers.bound Readers.trait
  Readers.types Readers.expression Readers.operation Readers.operand Readers.suffixes Readers.expressions

/-- By induction on the fuel, for all readers at once: without any they fail, and with some each is put together from steps
and from readers that have less. -/
lemma readers (fuel : Nat) : Readers fuel := by
  induction fuel with
  | zero => constructor <;> intros <;> exact failure
  | succ fuel ih =>
    constructor
    case' type => intro plus; rw [readType]
    case' array => rw [readArray]
    case' parenthesized => intro plus; rw [readParenthesized]
    case' tuple => rw [readTuple]
    case' moreTypes => rw [readMoreTypes]
    case' binder => rw [readBinder]
    case' lifetimes => rw [readLifetimes]
    case' function => rw [readFunction]
    case' parameters => rw [readParameters]
    case' result => rw [readResult]
    case' path => intro inExpression mayQualify; rw [readPath]
    case' segments => intro inExpression; rw [readSegments]
    case' segment => intro inExpression; rw [readSegment]
    case' angles => rw [readAngles]
    case' arguments => rw [readArguments]
    case' argument => rw [readArgument]
    case' bounds => intro plus; rw [readBounds]
    case' moreBounds => intro strict; rw [readMoreBounds]
    case' bound => rw [readBound]
    case' trait => rw [readTrait]
    case' types => rw [readTypes]
    case' expression => rw [readExpression]
    case' operation => rw [readOperation]
    case' operand => rw [readOperand]
    case' suffixes => rw [readSuffixes]
    case' expressions => rw [readExpressions]
    -- each body is put together from steps and, with less fuel, readers
    all_goals try dsimp only
    all_goals repeat' first
      | with_reducible exact pure _
      | with_reducible refine @bind _ _ _ _ inferInstance fun _ => ?_
      | with_reducible refine @ite _ _ _ _ _ ?_ ?_
      | split
      | infer_instance

/-- The fuel that is enough for the tokens is told by looking at them. -/
instance enough : enough.TakesFront := looking fun _ => ⟨_, rfl⟩

/-- A path is read with enough fuel, and takes from the front with any. -/
instance parsePath : parsePath.TakesFront := by
  have each (fuel : Nat) : (readPath false false fuel).TakesFront := (readers fuel).path false false
  exact bind

end TakesFront

end Parse

namespace Token

/-- An end of some tokens weighs no more than all of them. -/
lemma weightOf_le_of_suffix {rest tokens : List Token} (h : rest <:+ tokens) : weightOf rest ≤ weightOf tokens := by
  obtain ⟨front, rfl⟩ := h
  induction front with
  | nil => exact le_rfl
  | cons token front ih =>
    rw [List.cons_append, weightOf]
    omega

end Token

end FeatureLines.Derive
