import SceneTemplates.Expression.Token
import SceneTemplates.Text.Quoted
import SceneTemplates.Value.Basic

/-!
# Expression errors

An error is a cause with the source it stands in and the line of the template, as far as they
are known. Kind and wording follow from the cause.
-/
namespace SceneTemplates

inductive ExpressionErrorKind where
  | parseError | tooLong | tooDeep | tooComplex | disallowedOperator | disallowedSyntax
  | forbiddenProperty | computedMember | unknownFunction | nullDereference | runtimeTypeError
  deriving DecidableEq

namespace ExpressionErrorKind

def code : ExpressionErrorKind → String
  | .parseError => "parse_error"
  | .tooLong => "too_long"
  | .tooDeep => "too_deep"
  | .tooComplex => "too_complex"
  | .disallowedOperator => "disallowed_operator"
  | .disallowedSyntax => "disallowed_syntax"
  | .forbiddenProperty => "forbidden_property"
  | .computedMember => "computed_member_not_allowed"
  | .unknownFunction => "unknown_function"
  | .nullDereference => "null_dereference"
  | .runtimeTypeError => "runtime_type_error"

end ExpressionErrorKind

/-- What the parser needed and did not find. -/
inductive Expectation where
  | colonInConditional | closeIndex | memberName | closeGroup | closeArguments | closeArray
  | closeObject | closeComputedKey | colonAfterKey | objectKey
  deriving DecidableEq

namespace Expectation

def message : Expectation → String
  | .colonInConditional => "Expected ':' in conditional expression"
  | .closeIndex => "Expected ']' after index"
  | .memberName => "Expected identifier after '.'"
  | .closeGroup => "Expected ')' after expression"
  | .closeArguments => "Expected ')' after arguments"
  | .closeArray => "Expected ']' after array elements"
  | .closeObject => "Expected '\x7d' after object"
  | .closeComputedKey => "Expected ']' after computed key"
  | .colonAfterKey => "Expected ':' after object key"
  | .objectKey => "Expected string, number or identifier as object key"

end Expectation

/-- Constructs that are never allowed. -/
inductive ForbiddenSyntax where
  | this | new | assignment | update | sequence | spread
  deriving DecidableEq

namespace ForbiddenSyntax

def name : ForbiddenSyntax → String
  | .this => "this" | .new => "new" | .assignment => "assignment"
  | .update => "increment/decrement" | .sequence => "sequence" | .spread => "spread"

end ForbiddenSyntax

/-- What went wrong in an expression. -/
inductive ExpressionCause where
  | unexpectedCharacter (c : CodePoint) (position : Nat)
  | empty
  | unexpectedEnd (position : Nat)
  | unexpectedToken (token : Token)
  | expected (what : Expectation) (position : Nat)
  | tooLong (limit : Int)
  | tooDeep
  | tooComplex
  | unaryOperator (op : UnaryOperator)
  | binaryOperator (op : BinaryOperator)
  | forbidden (construct : ForbiddenSyntax)
  /-- A construct that has no value; the name of its node. -/
  | unsupported (node : String)
  | computedMember
  | forbiddenProperty (name : Text)
  | methodCall
  /-- No function of this name when the expression was checked. -/
  | functionNotFound (name : Text)
  /-- No function of this name when the call was evaluated. -/
  | functionGone (name : Text)
  | nullMember (property : Text) (isNull : Bool)
  | notConvertible (kind : Value.Kind)
  /-- Arithmetic without a result. -/
  | arithmetic (fault : ArithmeticFault)
  /-- A call that ended with an exception; its text, if it is known. -/
  | callFailed (name : Text) (words : Option Text)
  /-- A call refused because its exact result would have more bits than the limit. -/
  | resultTooLarge (name : Text) (function : GlobalFunction) (limit : Nat)
  /-- An error that a host function raised by itself. -/
  | host (kind : ExpressionErrorKind) (message : Text)
  deriving DecidableEq

namespace ExpressionCause

def kind : ExpressionCause → ExpressionErrorKind
  | .unexpectedCharacter _ _ | .empty | .unexpectedEnd _ | .unexpectedToken _
  | .expected _ _ => .parseError
  | .tooLong _ => .tooLong
  | .tooDeep => .tooDeep
  | .tooComplex => .tooComplex
  | .unaryOperator _ | .binaryOperator _ => .disallowedOperator
  | .forbidden _ | .unsupported _ | .methodCall => .disallowedSyntax
  | .computedMember => .computedMember
  | .forbiddenProperty _ => .forbiddenProperty
  | .functionNotFound _ | .functionGone _ => .unknownFunction
  | .nullMember _ _ => .nullDereference
  | .notConvertible _ | .arithmetic _ | .callFailed _ _ | .resultTooLarge _ _ _ => .runtimeTypeError
  | .host kind _ => kind

/-- A sentence with the position it speaks of. -/
def located (message : Text) (position : Nat) : Text :=
  message ++ " at position " ++ Text.ofNat position

/-- The message of a cause. -/
def detail : ExpressionCause → Text
  | .unexpectedCharacter c position => located ("Unexpected character '" ++ [c] ++ "'") position
  | .empty => located "Empty expression" 0
  | .unexpectedEnd position => located "Unexpected end of expression" position
  | .unexpectedToken token =>
    located ("Unexpected token '" ++ token.kind.shown ++ "'") token.position
  | .expected what position => located what.message position
  | .tooLong limit => "Expression too long (>" ++ Text.ofInt limit ++ ")"
  | .tooDeep => "Expression too deep"
  | .tooComplex => "Expression too complex"
  | .unaryOperator op => "Unary operator not allowed: " ++ Text.ofString op.spelling
  | .binaryOperator op => "Operator not allowed: " ++ Text.ofString op.spelling
  | .forbidden construct => "Syntax not allowed: " ++ Text.ofString construct.name
  | .unsupported node => "Unsupported syntax: " ++ Text.ofString node
  | .computedMember => "Computed member access not allowed"
  | .forbiddenProperty name => "Forbidden property: " ++ name
  | .methodCall => "Only global function calls are allowed (no obj.method())"
  | .functionNotFound name => "Function not found: " ++ name
  | .functionGone name => "Unknown function: " ++ name
  | .nullMember property isNull =>
    "Cannot read property '" ++ property ++ "' of " ++
      Text.ofString (if isNull then "null" else "undefined")
  | .notConvertible kind => "Cannot convert " ++ Text.ofString kind.name ++ " to number"
  | .arithmetic .overflow => "Number too large"
  | .arithmetic .divisionByZero => "Division by zero"
  | .arithmetic .notReal => "Result is not a number"
  | .callFailed name none => "Error calling " ++ name
  | .callFailed name (some words) => "Error calling " ++ name ++ ": " ++ words
  | .resultTooLarge name function limit =>
    "Error calling " ++ name ++ ": " ++ Text.ofString function.name ++ "() result exceeds " ++
      Text.ofNat limit ++ " bits"
  | .host _ message => message

end ExpressionCause

structure ExpressionError where
  cause : ExpressionCause
  /-- The text of the expression, when known. -/
  source : Option Text
  /-- The line of the template node that holds the expression, when known. -/
  line : Option Int
  deriving DecidableEq

namespace ExpressionError

/-- An error in a source, before any line is known. -/
def inSource (source : Text) (cause : ExpressionCause) : ExpressionError :=
  ⟨cause, some source, none⟩

/-- The error with a line, unless it has one. -/
def withLine (e : ExpressionError) (line : Option Int) : ExpressionError :=
  if e.line.isNone then { e with line } else e

/-- The full message: line, detail and source. -/
def message (e : ExpressionError) : Text :=
  let text :=
    match e.source with
    | some source => e.cause.detail ++ " in expression " ++ source.quoted
    | none => e.cause.detail
  match e.line with
  | some line => Text.ofInt line ++ ": " ++ text
  | none => text

end ExpressionError

end SceneTemplates
