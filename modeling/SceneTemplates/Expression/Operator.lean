/-!
# Operators

The operators of expressions with their spelling and the rules that group them. More of them
can be written than an expression may use, so that a refusal can name the operator.
-/
namespace SceneTemplates

inductive BinaryOperator where
  | nullish | or | and | bitOr | bitXor | bitAnd
  | equal | notEqual | strictEqual | strictNotEqual
  | less | lessEqual | greater | greaterEqual | within | instanceOf
  | shiftLeft | shiftRight | shiftRightUnsigned
  | plus | minus | times | divide | modulo | power
  deriving DecidableEq

namespace BinaryOperator

def spelling : BinaryOperator → String
  | .nullish => "??" | .or => "||" | .and => "&&"
  | .bitOr => "|" | .bitXor => "^" | .bitAnd => "&"
  | .equal => "==" | .notEqual => "!=" | .strictEqual => "===" | .strictNotEqual => "!=="
  | .less => "<" | .lessEqual => "<=" | .greater => ">" | .greaterEqual => ">="
  | .within => "in" | .instanceOf => "instanceof"
  | .shiftLeft => "<<" | .shiftRight => ">>" | .shiftRightUnsigned => ">>>"
  | .plus => "+" | .minus => "-" | .times => "*" | .divide => "/" | .modulo => "%"
  | .power => "**"

/-- How tightly an operator binds; the higher number binds first. -/
def precedence : BinaryOperator → Nat
  | .nullish => 1
  | .or => 2
  | .and => 3
  | .bitOr => 4
  | .bitXor => 5
  | .bitAnd => 6
  | .equal | .notEqual | .strictEqual | .strictNotEqual => 7
  | .less | .lessEqual | .greater | .greaterEqual | .within | .instanceOf => 8
  | .shiftLeft | .shiftRight | .shiftRightUnsigned => 9
  | .plus | .minus => 10
  | .times | .divide | .modulo => 11
  | .power => 12

/-- Whether equal operators group from the right. -/
def isRightAssociative : BinaryOperator → Bool
  | .power | .nullish => true
  | _ => false

/-- Whether an operator that follows the right operand of another takes that operand for its own
left one. -/
def takesFrom (next former : BinaryOperator) : Bool :=
  former.precedence < next.precedence ||
    (former.precedence == next.precedence && former.isRightAssociative)

/-- Whether expressions may use the operator. -/
def isAllowed : BinaryOperator → Bool
  | .bitOr | .bitXor | .bitAnd | .within | .instanceOf => false
  | .shiftLeft | .shiftRight | .shiftRightUnsigned => false
  | _ => true

end BinaryOperator

inductive UnaryOperator where
  | not | minus | plus | bitNot | typeof
  deriving DecidableEq

namespace UnaryOperator

def spelling : UnaryOperator → String
  | .not => "!" | .minus => "-" | .plus => "+" | .bitNot => "~" | .typeof => "typeof"

def isAllowed : UnaryOperator → Bool
  | .not | .minus | .plus => true
  | .bitNot | .typeof => false

end UnaryOperator

/-- An increment or a decrement. -/
inductive UpdateOperator where
  | increment | decrement
  deriving DecidableEq

namespace UpdateOperator

def spelling : UpdateOperator → String
  | .increment => "++" | .decrement => "--"

end UpdateOperator

/-- An assignment, plain or together with a binary operator. -/
structure AssignmentOperator where
  base : Option BinaryOperator
  deriving DecidableEq

namespace AssignmentOperator

def spelling (op : AssignmentOperator) : String :=
  match op.base with
  | some base => base.spelling ++ "="
  | none => "="

end AssignmentOperator

end SceneTemplates
