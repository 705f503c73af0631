import FeatureLines.Derive.Lexer

/-!
# Parsing tokens

The steps that parsers of token lists are made of. A parser takes tokens from the front and fails without saying why. An
operator of several characters is met only when they follow each other at once; a single character is met also when it
is the start of a longer operator.
-/

namespace FeatureLines.Derive

/-- Takes tokens from the front. -/
abbrev Parse := StateT (List Token) Option

/-- The words that are no names. -/
def keywords : List String :=
  ["_", "abstract", "as", "async", "await", "become", "box", "break", "const", "continue", "crate", "do", "dyn", "else",
    "enum", "extern", "false", "final", "fn", "for", "if", "impl", "in", "let", "loop", "macro", "match", "mod", "move",
    "mut", "override", "priv", "pub", "ref", "return", "Self", "self", "static", "struct", "super", "trait", "true",
    "try", "type", "typeof", "unsafe", "unsized", "use", "virtual", "where", "while", "yield"]

def afterOperator? : List Char → List Token → Option (List Token)
  | [], tokens => some tokens
  | [c], .punctuation d _ :: rest => if c = d then some rest else none
  | c :: cs, .punctuation d joint :: rest => if c = d ∧ joint then afterOperator? cs rest else none
  | _, _ => none

namespace Parse

def atEnd : Parse Bool := return (← get).isEmpty

/-- An operator comes next. -/
def at? (op : String) : Parse Bool := return (afterOperator? op.toList (← get)).isSome

def operator (op : String) : Parse (List Token) := do
  let rest ← afterOperator? op.toList (← get)
  let taken := (← get).take op.length
  set rest
  return taken

/-- Takes an operator if it comes next. -/
def operator? (op : String) : Parse (List Token) := do if ← at? op then operator op else return []

/-- A word comes next. -/
def atWord (word : String) : Parse Bool := do
  match (← get).head? with
  | some (.identifier text) => return text = word
  | _ => return false

/-- One of some words comes next. -/
def atWords (words : List String) : Parse Bool := do
  match (← get).head? with
  | some (.identifier text) => return words.contains text
  | _ => return false

/-- A word of any kind comes next. -/
def atAnyWord : Parse Bool := do
  match (← get).head? with
  | some (.identifier _) => return true
  | _ => return false

/-- A name comes next: a word that is no keyword. -/
def atName : Parse Bool := return (← atAnyWord) && !(← atWords keywords)

/-- Takes a word of any kind. -/
def anyWord : Parse String := do
  let .identifier text :: rest ← get | failure
  set rest
  return text

def word (expected : String) : Parse (List Token) := do
  let text ← anyWord
  if text = expected then return [.identifier text] else failure

def word? (expected : String) : Parse (List Token) := do if ← atWord expected then word expected else return []

/-- Takes a name. -/
def name : Parse String := do if ← atName then anyWord else failure

/-- A group comes next. -/
def atGroup (delimiter : Delimiter) : Parse Bool := do
  match (← get).head? with
  | some (.group d _) => return d = delimiter
  | _ => return false

/-- Takes a group and gives its content. -/
def group (delimiter : Delimiter) : Parse (List Token) := do
  let .group d content :: rest ← get | failure
  if d = delimiter then set rest else failure
  return content

/-- Takes a group of any kind. -/
def anyGroup : Parse (List Token) := do
  let .group d content :: rest ← get | failure
  set rest
  return [.group d content]

/-- The name of a lifetime comes next. -/
def atLifetime : Parse Bool := do
  match ← get with
  | .punctuation '\'' true :: .identifier _ :: _ => return true
  | _ => return false

def lifetime : Parse (List Token) := do
  if ← atLifetime then
    let tokens ← get
    set (tokens.drop 2)
    return tokens.take 2
  else failure

/-- A literal comes next: one in the source, a flag, or a negative number. -/
def atLiteral : Parse Bool := do
  match ← get with
  | .literal _ :: _ => return true
  | .identifier text :: _ => return text = "true" || text = "false"
  | .punctuation '-' _ :: .literal text :: _ => return text.toList.head?.any Char.isDigit
  | _ => return false

def literal : Parse (List Token) := do
  if ← atLiteral then
    let tokens ← get
    let count ← if ← at? "-" then pure 2 else pure 1
    set (tokens.drop count)
    return tokens.take count
  else failure

def whole {α : Type} (p : Parse α) (content : List Token) : Parse α := fun tokens => do
  let (result, rest) ← p.run content
  if rest.isEmpty then some (result, tokens) else none

/-- Looks past the next tokens. -/
def ahead (count : Nat) (p : Parse Bool) : Parse Bool := fun tokens =>
  match p.run (tokens.drop count) with
  | some (answer, _) => some (answer, tokens)
  | none => some (false, tokens)

end Parse

end FeatureLines.Derive
