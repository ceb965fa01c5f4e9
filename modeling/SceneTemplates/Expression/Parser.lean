import SceneTemplates.Expression.Grouping
import SceneTemplates.Expression.Lexer

/-!
# Parsing expressions

The parser goes down by levels of nesting. A level offers two parsers, one for an expression and
one for an operand, each already inside a certain number of nestings; the next level is built
from it. Parentheses, unary operators and every expression inside another one use up one level,
and when none is left the expression is too deep. Loops over lists of items are bounded by the
number of tokens that are left; each round takes at least one.

The limit alone bounds the nesting here. A parser that recurses on the stack of a machine may run
out of it within the limit, and then reports the same error; how far its stack reaches is left out.
-/
namespace SceneTemplates

/-- A parser takes tokens from the front and returns the rest. -/
abbrev Parser (α : Type) := List Token → Except ExpressionCause (α × List Token)

namespace Parser

def position : List Token → Nat
  | token :: _ => token.position
  | [] => 0

/-- Whether a symbol stands at the front. -/
def startsWith (s : Symbol) : List Token → Bool
  | token :: _ => decide (token.kind = .symbol s)
  | [] => false

/-- Takes a symbol that has to stand at the front. -/
def expect (s : Symbol) (what : Expectation) (tokens : List Token) :
    Except ExpressionCause (List Token) :=
  match tokens with
  | token :: rest =>
    if token.kind = .symbol s then .ok rest else .error (.expected what token.position)
  | [] => .error (.expected what 0)

/-- Items that each follow a comma. -/
def moreItems {α : Type} (item : Parser α) : Nat → Parser (List α)
  | 0, tokens => .ok ([], tokens)
  | fuel + 1, tokens =>
    if startsWith .comma tokens then do
      let (first, rest) ← item tokens.tail
      let (others, rest) ← moreItems item fuel rest
      return (first :: others, rest)
    else .ok ([], tokens)

/-- Items that each follow a comma; a comma before the closing symbol ends them. -/
def moreClosedItems {α : Type} (item : Parser α) (close : Symbol) : Nat → Parser (List α)
  | 0, tokens => .ok ([], tokens)
  | fuel + 1, tokens =>
    if startsWith .comma tokens then
      if startsWith close tokens.tail then .ok ([], tokens.tail)
      else do
        let (first, rest) ← item tokens.tail
        let (others, rest) ← moreClosedItems item close fuel rest
        return (first :: others, rest)
    else .ok ([], tokens)

/-- Items between an opening symbol, already taken, and a closing one. -/
def closedItems {α : Type} (item : Parser α) (close : Symbol) (what : Expectation)
    (trailingComma : Bool) : Parser (List α) := fun tokens =>
  if startsWith close tokens then .ok ([], tokens.tail)
  else do
    let (first, rest) ← item tokens
    let (others, rest) ←
      if trailingComma then moreClosedItems item close rest.length rest
      else moreItems item rest.length rest
    return (first :: others, ← expect close what rest)

/-- Expressions with commas between them; a single one stands for itself. -/
def sequence (expression : Parser Expr) : Parser Expr := fun tokens => do
  let (first, rest) ← expression tokens
  let (others, rest) ← moreItems expression rest.length rest
  return (if others.isEmpty then first else .sequence (first :: others), rest)

/-- An expression, or a spread of one. -/
def element (expression : Parser Expr) : Parser Expr := fun tokens =>
  if startsWith .spread tokens then do
    let (argument, rest) ← expression tokens.tail
    return (.spread argument, rest)
  else expression tokens

/-- The arguments of a call, behind the opening parenthesis. -/
def arguments (expression : Parser Expr) : Parser (List Expr) :=
  closedItems (element expression) .closeParen .closeArguments false

/-- The value of a property, behind its key. -/
def propertyValue (expression : Parser Expr) (key : PropertyKey) : Parser Property :=
  fun tokens => do
    let (value, rest) ← expression (← expect .colon .colonAfterKey tokens)
    return (.keyed key value, rest)

def property (expression : Parser Expr) : Parser Property := fun tokens =>
  match tokens with
  | ⟨.symbol .spread, _⟩ :: rest => do
    let (argument, rest) ← expression rest
    return (.spread argument, rest)
  | ⟨.symbol .openBracket, _⟩ :: rest => do
    let (key, rest) ← expression rest
    propertyValue expression (.computed key) (← expect .closeBracket .closeComputedKey rest)
  | ⟨.text t, _⟩ :: rest => propertyValue expression (.constant (.text t)) rest
  | ⟨.number n, _⟩ :: rest => propertyValue expression (.constant (.number n)) rest
  | ⟨.name t, _⟩ :: rest =>
    if startsWith .colon rest then propertyValue expression (.name t) rest
    else .ok (.shorthand t, rest)
  | _ => .error (.expected .objectKey (position tokens))

/-- A constant, a name, or something in brackets. -/
def primary (expression group : Parser Expr) : Parser Expr := fun tokens =>
  match tokens with
  | ⟨.number n, _⟩ :: rest => .ok (.constant (.number n), rest)
  | ⟨.text t, _⟩ :: rest => .ok (.constant (.text t), rest)
  | ⟨.bool b, _⟩ :: rest => .ok (.constant (.bool b), rest)
  | ⟨.null, _⟩ :: rest => .ok (.constant .null, rest)
  | ⟨.name t, _⟩ :: rest => .ok (.name t, rest)
  | ⟨.keyword .this, _⟩ :: rest => .ok (.this, rest)
  | ⟨.symbol .openParen, _⟩ :: rest => do
    let (e, rest) ← group rest
    return (e, ← expect .closeParen .closeGroup rest)
  | ⟨.symbol .openBracket, _⟩ :: rest => do
    let (elements, rest) ←
      closedItems (element expression) .closeBracket .closeArray true rest
    return (.array elements, rest)
  | ⟨.symbol .openBrace, _⟩ :: rest => do
    let (properties, rest) ←
      closedItems (property expression) .closeBrace .closeObject true rest
    return (.object properties, rest)
  | ⟨.finish, position⟩ :: _ => .error (.unexpectedEnd position)
  | token :: _ => .error (.unexpectedToken token)
  | [] => .error (.unexpectedEnd 0)

/-- The name of a member, behind the point. -/
def memberName : Parser Text := fun tokens =>
  match tokens with
  | token :: rest =>
    match token.kind.memberName? with
    | some name => .ok (name, rest)
    | none => .error (.expected .memberName token.position)
  | [] => .error (.expected .memberName 0)

/-- Members, indices and calls behind an expression. -/
def suffixes (expression : Parser Expr) : Nat → Expr → Parser Expr
  | 0, e, tokens => .ok (e, tokens)
  | fuel + 1, e, tokens =>
    if startsWith .dot tokens then do
      let (name, rest) ← memberName tokens.tail
      suffixes expression fuel (.member e name) rest
    else if startsWith .openBracket tokens then do
      let (key, rest) ← sequence expression tokens.tail
      suffixes expression fuel (.index e key) (← expect .closeBracket .closeIndex rest)
    else if startsWith .openParen tokens then do
      let (args, rest) ← arguments expression tokens.tail
      suffixes expression fuel (.call e args) rest
    else .ok (e, tokens)

/-- Members behind the callee of a construction. -/
def members : Nat → Expr → Parser Expr
  | 0, e, tokens => .ok (e, tokens)
  | fuel + 1, e, tokens =>
    if startsWith .dot tokens then do
      let (name, rest) ← memberName tokens.tail
      members fuel (.member e name) rest
    else .ok (e, tokens)

/-- A construction behind the word `new`; its arguments may be left out. -/
def construction (expression group : Parser Expr) : Parser Expr := fun tokens => do
  let (callee, rest) ← primary expression group tokens
  let (callee, rest) ← members rest.length callee rest
  if startsWith .openParen rest then
    let (args, rest) ← arguments expression rest.tail
    return (.new callee args, rest)
  else return (.new callee [], rest)

/-- A primary expression with everything that follows it closely. -/
def suffixed (expression group : Parser Expr) : Parser Expr := fun tokens => do
  let (e, rest) ←
    match tokens with
    | ⟨.keyword .new, _⟩ :: rest => construction expression group rest
    | _ => primary expression group tokens
  suffixes expression rest.length e rest

/-- An operand: unary operators and updates around a suffixed expression. -/
def operand (expression group inner : Parser Expr) : Parser Expr := fun tokens =>
  match tokens with
  | [] => suffixed expression group tokens
  | ⟨kind, _⟩ :: rest =>
    match kind.unary? with
    | some op => do
      let (e, rest) ← inner rest
      return (.unary op e, rest)
    | none =>
      match kind with
      | .symbol (.update op) => do
        let (e, rest) ← inner rest
        return (.update op e true, rest)
      | _ => do
        let (e, rest) ← suffixed expression group tokens
        match rest with
        | ⟨.symbol (.update op), _⟩ :: rest => return (.update op e false, rest)
        | _ => return (e, rest)

/-- Operands that each follow a binary operator. -/
def moreOperands (operand : Parser Expr) : Nat → Parser (List (BinaryOperator × Expr))
  | 0, tokens => .ok ([], tokens)
  | fuel + 1, tokens =>
    match tokens with
    | [] => .ok ([], tokens)
    | token :: following =>
      match token.kind.binary? with
      | none => .ok ([], tokens)
      | some op => do
        let (e, rest) ← operand following
        let (others, rest) ← moreOperands operand fuel rest
        return ((op, e) :: others, rest)

/-- Operands with binary operators between them. -/
def operators (operand : Parser Expr) : Parser Expr := fun tokens => do
  let (first, rest) ← operand tokens
  let (row, rest) ← moreOperands operand rest.length rest
  return ((OperatorTree.ofRow first row).toExpr, rest)

/-- Operators, or a choice between two expressions. -/
def conditional (expression operand : Parser Expr) : Parser Expr := fun tokens => do
  let (test, rest) ← operators operand tokens
  if startsWith .question rest then
    let (consequent, rest) ← expression rest.tail
    let (alternate, rest) ← expression (← expect .colon .colonInConditional rest)
    return (.conditional test consequent alternate, rest)
  else return (test, rest)

/-- A conditional, or an assignment of an expression to it. -/
def assignment (expression operand : Parser Expr) : Parser Expr := fun tokens => do
  let (target, rest) ← conditional expression operand tokens
  match rest with
  | ⟨.symbol (.assign op), _⟩ :: rest =>
    let (value, rest) ← expression rest
    return (.assign op target value, rest)
  | _ => return (target, rest)

/-- The parsers that are left inside some nestings. -/
structure Level where
  expression : Parser Expr
  operand : Parser Expr

namespace Level

/-- No nesting is left. -/
def exhausted : Level := ⟨fun _ => .error .tooDeep, fun _ => .error .tooDeep⟩

/-- The level around another one. -/
def around (inner : Level) : Level :=
  let expression := assignment inner.expression inner.operand
  ⟨expression, Parser.operand expression (sequence inner.expression) inner.operand⟩

/-- The level with a number of nestings left. -/
def ofNat : Nat → Level
  | 0 => exhausted
  | n + 1 => ⟨fun tokens => (ofNat n).around.expression tokens,
      fun tokens => (ofNat n).around.operand tokens⟩

end Level

/-- A whole expression: nothing but the end may follow. -/
def whole (maxNesting : Int) (tokens : List Token) : Except ExpressionCause Expr := do
  match tokens with
  | [] | ⟨.finish, _⟩ :: _ => throw .empty
  | _ => pure ()
  let (e, rest) ← sequence (Level.ofNat (maxNesting.toNat + 1)).expression tokens
  match rest with
  | [] | ⟨.finish, _⟩ :: _ => return e
  | token :: _ => throw (.unexpectedToken token)

end Parser

/-- The nestings an expression may have by default. -/
def defaultMaxNesting : Int := 200

/-- The tree of a source. An error of the tokens comes before any error of the tree. -/
def parse (source : Text) (maxNesting : Int) : Except ExpressionError Expr :=
  match tokenize source with
  | .error cause => .error (.inSource source cause)
  | .ok tokens =>
    match Parser.whole maxNesting tokens with
    | .error cause => .error (.inSource source cause)
    | .ok e => .ok e

end SceneTemplates
