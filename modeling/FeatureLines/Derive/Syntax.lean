import FeatureLines.Derive.Parse

/-!
# Types in Rust sources

The grammar of types, with the paths, the generic arguments, the trait bounds and the constant expressions that types
are made of. Of a path it is kept what `Option` and `Box` are told apart by, and of everything the tokens that it is
written with; in generic arguments lifetimes are written first. The parsers call each other, and every call that does
not take a token goes down the grammar, so `fuel` in proportion to the number of tokens is never used up.
-/

namespace FeatureLines.Derive

open Parse

/-- What kind of path a type is. -/
structure PathForm where
  /-- It starts with a type in angle brackets. -/
  isQualified : Bool
  /-- It is one segment, without colons in front. -/
  isSingle : Bool
  /-- No segment has generic arguments. -/
  isPlain : Bool
deriving DecidableEq, Repr

/-- A type as it is written. -/
inductive TypeExpr where
  /-- A path, with the name and the generic arguments of its last segment; an argument that is no type is `none`. -/
  | path (tokens : List Token) (form : PathForm) (last : String) (arguments : List (Option TypeExpr))
  | other (tokens : List Token)

namespace TypeExpr

def tokens : TypeExpr → List Token
  | path tokens _ _ _ => tokens
  | other tokens => tokens

/-- The generic arguments of the last segment. -/
def arguments : TypeExpr → List (Option TypeExpr)
  | path _ _ _ arguments => arguments
  | other _ => []

end TypeExpr

/-- A generic argument with the comma behind it. -/
structure GenericArgument where
  isLifetime : Bool
  tokens : List Token
  type : Option TypeExpr
  comma : List Token

/-- Writes generic arguments, with a comma between any two. -/
def writeArguments (separated : Bool) : List GenericArgument → List Token
  | [] => []
  | argument :: rest =>
    (if separated then [] else Token.operator ",") ++ argument.tokens ++ argument.comma ++
      writeArguments (!argument.comma.isEmpty) rest

/-- Writes generic arguments in angle brackets, the lifetimes first. -/
def bracketArguments (arguments : List GenericArgument) : List Token :=
  let lifetimes := arguments.filter GenericArgument.isLifetime
  let others := arguments.filter fun argument => !argument.isLifetime
  let separated := (lifetimes.getLast?.map fun last => !last.comma.isEmpty).getD true
  Token.operator "<" ++ lifetimes.flatMap (fun argument => argument.tokens ++ argument.comma) ++
    writeArguments separated others ++ Token.operator ">"

/-- A segment of a path. -/
structure Segment where
  name : String
  tokens : List Token
  /-- The generic arguments, when there are angle brackets. -/
  arguments : Option (List GenericArgument)

/-- What a trait bound is. -/
inductive BoundKind where
  | ofTrait
  | ofLifetime
  /-- The list of captured names. -/
  | capture
deriving DecidableEq

/-- The operators between the operands of an expression, longer ones first. -/
def binaryOperators : List String :=
  ["<<=", ">>=", "..=", "...", "&&", "||", "<<", ">>", "==", "!=", "<=", ">=", "+=", "-=", "*=", "/=", "%=", "^=", "&=",
    "|=", "..", "+", "-", "*", "/", "%", "^", "&", "|", "<", ">", "="]

/-- Expressions that start with one of these words have a grammar of their own. -/
def expressionWords : List String :=
  ["if", "match", "while", "for", "loop", "unsafe", "async", "const", "move", "return", "break", "continue", "static",
    "let"]

def upToComma : Parse (List Token) := do
  let tokens ← get
  let isComma : Token → Bool
    | .punctuation ',' _ => true
    | _ => false
  set (tokens.dropWhile fun token => !isComma token)
  return tokens.takeWhile fun token => !isComma token

/-- A bound may follow a plus sign. -/
def atBound : Parse Bool := do
  return (← atAnyWord) || (← at? "::") || (← at? "?") || (← atLifetime) || (← atGroup .parenthesis) ||
    (← atGroup .bracket)

mutual

/-- A type; `plus` says whether a sum of bounds may stand here. -/
def readType (plus : Bool) : Nat → Parse TypeExpr
  | 0 => failure
  | fuel + 1 => do
    let binder ← if ← atWord "for" then some <$> readBinder fuel else pure none
    let bound := binder.getD []
    if binder.isSome && !((← atName) || (← atWords ["fn", "unsafe", "extern", "super", "self", "Self", "crate"])) then
      failure
    if ← atGroup .parenthesis then readParenthesized plus fuel
    else if ← atWords ["fn", "unsafe", "extern"] then return .other (bound ++ (← readFunction fuel))
    else if (← atName) || (← atWords ["super", "self", "Self", "crate"]) || (← at? "::") || (← at? "<") then
      match ← readPath false true fuel with
      | .path tokens form last arguments =>
        if form.isQualified then return .path tokens form last arguments
        else if form.isPlain && (← at? "!") && !(← at? "!=") then
          return .other (tokens ++ (← operator "!") ++ (← anyGroup))
        else if binder.isSome || plus && (← at? "+") then
          return .other (bound ++ tokens ++ (← if plus then readMoreBounds false fuel else pure []))
        else return .path tokens form last arguments
      | other => return other
    else if ← atWord "dyn" then
      let start := (← word "dyn") ++ (← operator? "*")
      let (tokens, kinds) ← readBounds plus fuel
      if kinds.contains .ofTrait then return .other (start ++ tokens) else failure
    else if ← atGroup .bracket then
      let content ← group .bracket
      return .other [.group .bracket (← whole (readArray fuel) content)]
    else if ← at? "*" then
      let star ← operator "*"
      let kind ← if ← atWord "const" then word "const" else word "mut"
      return .other (star ++ kind ++ (← readType false fuel).tokens)
    else if ← at? "&" then
      let start := (← operator "&") ++ (← if ← atLifetime then lifetime else pure []) ++ (← word? "mut")
      return .other (start ++ (← readType false fuel).tokens)
    else if (← at? "!") && !(← at? "=") then return .other (← operator "!")
    else if ← atWord "impl" then
      let start ← word "impl"
      let (tokens, kinds) ← readBounds plus fuel
      if kinds.contains .ofTrait then return .other (start ++ tokens) else failure
    else if ← atWord "_" then return .other (← word "_")
    else if ← atLifetime then
      let (tokens, kinds) ← readBounds true fuel
      if kinds.contains .ofTrait then return .other tokens else failure
    else failure

/-- The inside of square brackets: a slice, or an array with its length. -/
def readArray : Nat → Parse (List Token)
  | 0 => failure
  | fuel + 1 => do
    let item ← readType true fuel
    if ← at? ";" then return item.tokens ++ (← operator ";") ++ (← readExpression fuel) else return item.tokens

/-- A tuple, a type in parentheses, or a sum that starts with a bound in parentheses. -/
def readParenthesized (plus : Bool) : Nat → Parse TypeExpr
  | 0 => failure
  | fuel + 1 => do
    let content ← group .parenthesis
    let inside ← whole (readTuple fuel) content
    let first : List Token := [.group .parenthesis inside.1]
    if inside.2 && plus && (← at? "+") then return .other (first ++ (← readMoreBounds true fuel))
    else return .other first

/-- The inside of parentheses, and whether it is a bound by itself. -/
def readTuple : Nat → Parse (List Token × Bool)
  | 0 => failure
  | fuel + 1 => do
    if ← atEnd then return ([], false)
    if ← at? "?" then
      let (tokens, _) ← readBound fuel
      return (tokens, true)
    let first ← readType true fuel
    if ← at? "," then return (first.tokens ++ (← readMoreTypes fuel), false)
    match first with
    | .path tokens form _ _ => return (tokens, !form.isQualified)
    | .other tokens => return (tokens, false)

/-- The types behind the first one of a tuple, each after its comma. -/
def readMoreTypes : Nat → Parse (List Token)
  | 0 => failure
  | fuel + 1 => do
    if ← atEnd then return []
    let comma ← operator ","
    if ← atEnd then return comma
    return comma ++ (← readType true fuel).tokens ++ (← readMoreTypes fuel)

/-- The lifetimes that a type is for. -/
def readBinder : Nat → Parse (List Token)
  | 0 => failure
  | fuel + 1 => do return (← word "for") ++ (← operator "<") ++ (← readLifetimes fuel) ++ (← operator ">")

/-- Lifetimes with commas between them. -/
def readLifetimes : Nat → Parse (List Token)
  | 0 => failure
  | fuel + 1 => do
    if ← at? ">" then return []
    let first ← lifetime
    if ← at? ">" then return first
    return first ++ (← operator ",") ++ (← readLifetimes fuel)

/-- A function type, its lifetimes aside. -/
def readFunction : Nat → Parse (List Token)
  | 0 => failure
  | fuel + 1 => do
    let safety ← word? "unsafe"
    let abi ←
      if ← atWord "extern" then
        let start ← word "extern"
        match (← get).head? with
        | some (.literal _) => pure (start ++ (← literal))
        | _ => pure start
      else pure []
    let start := safety ++ abi ++ (← word "fn")
    let content ← group .parenthesis
    let parameters ← whole (readParameters fuel) content
    return start ++ [.group .parenthesis parameters] ++ (← readResult fuel)

/-- The parameters of a function type, each with a name or without. -/
def readParameters : Nat → Parse (List Token)
  | 0 => failure
  | fuel + 1 => do
    if ← atEnd then return []
    let isNamed := ((← atName) || (← atWords ["_", "self"])) && (← ahead 1 (at? ":")) && !(← ahead 1 (at? "::"))
    let name ← if isNamed then pure ([Token.identifier (← anyWord)] ++ (← operator ":")) else pure []
    if ← at? "..." then
      let dots ← operator "..."
      return name ++ dots ++ (← operator? ",")
    let first := name ++ (← readType true fuel).tokens
    if ← atEnd then return first
    return first ++ (← operator ",") ++ (← readParameters fuel)

/-- The result of a function type, if it has one. -/
def readResult : Nat → Parse (List Token)
  | 0 => failure
  | fuel + 1 => do
    if ← at? "->" then return (← operator "->") ++ (← readType false fuel).tokens else return []

/-- A path, of types or of an expression; a path that may be qualified can start with a type in angle brackets. -/
def readPath (inExpression mayQualify : Bool) : Nat → Parse TypeExpr
  | 0 => failure
  | fuel + 1 => do
    if mayQualify && (← at? "<") then
      let start ← operator "<"
      let self ← readType true fuel
      let origin ← if ← atWord "as" then pure ((← word "as") ++ (← readPath false false fuel).tokens) else pure []
      let stop := (← operator ">") ++ (← operator "::")
      let (tokens, last, _) ← readSegments inExpression fuel
      return .path (start ++ self.tokens ++ origin ++ stop ++ tokens) ⟨true, false, false⟩ last.name
        ((last.arguments.getD []).map GenericArgument.type)
    else
      let start ← operator? "::"
      let (tokens, last, plain) ← readSegments inExpression fuel
      let isSingle := start.isEmpty && tokens.length = last.tokens.length
      return .path (start ++ tokens) ⟨false, isSingle, plain⟩ last.name
        ((last.arguments.getD []).map GenericArgument.type)

/-- The segments of a path: their tokens, the last one, and whether none has generic arguments. -/
def readSegments (inExpression : Bool) : Nat → Parse (List Token × Segment × Bool)
  | 0 => failure
  | fuel + 1 => do
    let first ← readSegment inExpression fuel
    if (← at? "::") && !(← ahead 2 (atGroup .parenthesis)) then
      let colons ← operator "::"
      let (tokens, last, plain) ← readSegments inExpression fuel
      return (first.tokens ++ colons ++ tokens, last, plain && first.arguments.isNone)
    else return (first.tokens, first, first.arguments.isNone)

/-- A segment of a path. In an expression, generic arguments come after colons. -/
def readSegment (inExpression : Bool) : Nat → Parse Segment
  | 0 => failure
  | fuel + 1 => do
    if ← atWords ["super", "self", "crate", "try"] then
      let name ← anyWord
      return ⟨name, [.identifier name], none⟩
    let name ← if ← atWord "Self" then anyWord else name
    let isOpen := !inExpression && (← at? "<") && !(← at? "<=") && !(← at? "<<=")
    if isOpen || (← at? "::") && (← ahead 2 (at? "<")) then
      let colons ← operator? "::"
      let (tokens, arguments) ← readAngles fuel
      return ⟨name, [.identifier name] ++ colons ++ tokens, some arguments⟩
    else return ⟨name, [.identifier name], none⟩

def readAngles : Nat → Parse (List Token × List GenericArgument)
  | 0 => failure
  | fuel + 1 => do
    let _ ← operator "<"
    let arguments ← readArguments fuel
    let _ ← operator ">"
    return (bracketArguments arguments, arguments)

/-- Generic arguments up to the closing bracket. -/
def readArguments : Nat → Parse (List GenericArgument)
  | 0 => failure
  | fuel + 1 => do
    if ← at? ">" then return []
    let argument ← readArgument fuel
    if ← at? ">" then return [argument]
    let comma ← operator ","
    return { argument with comma } :: (← readArguments fuel)

/-- A generic argument: a lifetime, a constant, a type, or a name with what is said of it. -/
def readArgument : Nat → Parse GenericArgument
  | 0 => failure
  | fuel + 1 => do
    if (← atLifetime) && !(← ahead 2 (at? "+")) then return ⟨true, ← lifetime, none, []⟩
    if ← atLiteral then return ⟨false, ← literal, none, []⟩
    if ← atGroup .brace then return ⟨false, ← anyGroup, none, []⟩
    let type ← readType true fuel
    match type with
    | .path tokens form _ _ =>
      if form.isSingle && !form.isQualified then
        if ← at? "=" then
          let start := tokens ++ (← operator "=")
          if ← atLiteral then return ⟨false, start ++ (← literal), none, []⟩
          if ← atGroup .brace then return ⟨false, start ++ (← anyGroup), none, []⟩
          return ⟨false, start ++ (← readType true fuel).tokens, none, []⟩
        if ← at? ":" then
          let start := tokens ++ (← operator ":")
          if (← at? ",") || (← at? ">") then return ⟨false, start, none, []⟩
          return ⟨false, start ++ (← readBounds true fuel).1, none, []⟩
      return ⟨false, tokens, some type, []⟩
    | .other tokens => return ⟨false, tokens, some type, []⟩

/-- Bounds with plus signs between them, if they may be summed. -/
def readBounds (plus : Bool) : Nat → Parse (List Token × List BoundKind)
  | 0 => failure
  | fuel + 1 => do
    let (first, kind) ← readBound fuel
    if plus && (← at? "+") then
      let sign ← operator "+"
      if ← atBound then
        let (tokens, kinds) ← readBounds true fuel
        return (first ++ sign ++ tokens, kind :: kinds)
      else return (first ++ sign, [kind])
    else return (first, [kind])

/-- The bounds behind the first one, each after its plus sign. With `strict`, a sign is followed by a bound. -/
def readMoreBounds (strict : Bool) : Nat → Parse (List Token)
  | 0 => failure
  | fuel + 1 => do
    if ← at? "+" then
      let sign ← operator "+"
      if strict || (← atBound) then
        let (first, _) ← readBound fuel
        return sign ++ first ++ (← readMoreBounds strict fuel)
      else return sign
    else return []

/-- A bound: a lifetime, a trait with what is said of it, or the names that are captured. -/
def readBound : Nat → Parse (List Token × BoundKind)
  | 0 => failure
  | fuel + 1 => do
    if ← atLifetime then return (← lifetime, .ofLifetime)
    if ← atWord "use" then
      let start ← word "use"
      return (start ++ (← readAngles fuel).1, .capture)
    if ← atGroup .parenthesis then
      let content ← group .parenthesis
      return ([.group .parenthesis (← whole (readTrait fuel) content)], .ofTrait)
    return (← readTrait fuel, .ofTrait)

/-- A trait: lifetimes, a question mark and a path that has generic arguments or parameters like a function. -/
def readTrait : Nat → Parse (List Token)
  | 0 => failure
  | fuel + 1 => do
    let binder ← if ← atWord "for" then readBinder fuel else pure []
    let mark ← operator? "?"
    if !binder.isEmpty && !mark.isEmpty then failure
    let late ← if !mark.isEmpty && (← atWord "for") then readBinder fuel else pure []
    if !late.isEmpty then failure
    let path ← readPath false false fuel
    let call ←
      if path.arguments.isEmpty && ((← atGroup .parenthesis) || (← at? "::") && (← ahead 2 (atGroup .parenthesis))) then
        let _ ← operator? "::"
        let content ← group .parenthesis
        let parameters ← whole (readTypes fuel) content
        pure ([Token.group .parenthesis parameters] ++ (← readResult fuel))
      else pure []
    return binder ++ mark ++ path.tokens ++ call

/-- Types with commas between them. -/
def readTypes : Nat → Parse (List Token)
  | 0 => failure
  | fuel + 1 => do
    if ← atEnd then return []
    let first ← readType true fuel
    if ← atEnd then return first.tokens
    return first.tokens ++ (← operator ",") ++ (← readTypes fuel)

/-- An expression: operands with operators between them. -/
def readExpression : Nat → Parse (List Token)
  | 0 => failure
  | fuel + 1 => do
    if ← atWords expressionWords then return ← upToComma
    let first ← readOperand fuel
    if ← atWord "as" then
      let cast := (← word "as") ++ (← readType false fuel).tokens
      return first ++ cast ++ (← readOperation fuel)
    return first ++ (← readOperation fuel)

/-- An operator with the expression behind it, or a cast, if one comes next. -/
def readOperation : Nat → Parse (List Token)
  | 0 => failure
  | fuel + 1 => do
    if ← atWord "as" then
      let cast := (← word "as") ++ (← readType false fuel).tokens
      return cast ++ (← readOperation fuel)
    for op in binaryOperators do
      if ← at? op then
        let sign ← operator op
        if (op = ".." || op = "...") && (← atEnd) then return sign
        return sign ++ (← readExpression fuel)
    return []

/-- An operand with the signs in front of it and what is done with it behind it. -/
def readOperand : Nat → Parse (List Token)
  | 0 => failure
  | fuel + 1 => do
    for op in ["-", "!", "*"] do
      if ← at? op then return (← operator op) ++ (← readOperand fuel)
    if ← at? "&" then return (← operator "&") ++ (← word? "mut") ++ (← readOperand fuel)
    if ← at? ".." then
      let dots ← if ← at? "..=" then operator "..=" else operator ".."
      if ← atEnd then return dots
      return dots ++ (← readOperand fuel)
    if ← atLiteral then
      let tokens ← literal
      return tokens ++ (← readSuffixes fuel)
    if ← atGroup .parenthesis then
      let content ← group .parenthesis
      let inside ← whole (readExpressions fuel) content
      return [.group .parenthesis inside] ++ (← readSuffixes fuel)
    if ← atGroup .bracket then
      let content ← group .bracket
      let inside ← whole (readExpressions fuel) content
      return [.group .bracket inside] ++ (← readSuffixes fuel)
    if ← atGroup .brace then return (← anyGroup) ++ (← readSuffixes fuel)
    match ← readPath true true fuel with
    | .path tokens form _ _ =>
      if form.isPlain && (← at? "!") && !(← at? "!=") then
        let call := (← operator "!") ++ (← anyGroup)
        return tokens ++ call ++ (← readSuffixes fuel)
      if ← atGroup .brace then return tokens ++ (← anyGroup) ++ (← readSuffixes fuel)
      return tokens ++ (← readSuffixes fuel)
    | .other tokens => return tokens

/-- Calls, indices, fields and question marks behind an operand. -/
def readSuffixes : Nat → Parse (List Token)
  | 0 => failure
  | fuel + 1 => do
    if ← atGroup .parenthesis then
      let content ← group .parenthesis
      let inside ← whole (readExpressions fuel) content
      return [.group .parenthesis inside] ++ (← readSuffixes fuel)
    if ← atGroup .bracket then
      let content ← group .bracket
      let inside ← whole (readExpression fuel) content
      return [.group .bracket inside] ++ (← readSuffixes fuel)
    if ← at? "?" then return (← operator "?") ++ (← readSuffixes fuel)
    if (← at? ".") && !(← at? "..") then
      let dot ← operator "."
      match (← get).head? with
      | some (.literal _) => return dot ++ (← literal) ++ (← readSuffixes fuel)
      | _ =>
        let member ← if ← atWord "await" then word "await" else do pure [Token.identifier (← name)]
        let arguments ←
          if (← at? "::") && (← ahead 2 (at? "<")) then
            let colons ← operator "::"
            pure (colons ++ (← readAngles fuel).1)
          else pure []
        return dot ++ member ++ arguments ++ (← readSuffixes fuel)
    return []

/-- Expressions with commas between them, or one repeated a number of times. -/
def readExpressions : Nat → Parse (List Token)
  | 0 => failure
  | fuel + 1 => do
    if ← atEnd then return []
    let first ← readExpression fuel
    if ← atEnd then return first
    if ← at? ";" then return first ++ (← operator ";") ++ (← readExpression fuel)
    return first ++ (← operator ",") ++ (← readExpressions fuel)

end

/-- Fuel for all that can be parsed from the tokens at hand. -/
def enough : Parse Nat := return 16 * Token.weightOf (← get) + 16

def parseType : Parse TypeExpr := do readType true (← enough)

/-- Takes a path without a type in front. -/
def parsePath : Parse (List Token) := do return (← readPath false false (← enough)).tokens

def parseExpression : Parse (List Token) := do readExpression (← enough)

end FeatureLines.Derive
