import SceneTemplates.Expression.Error

/-!
# Expression trees

The tree of an expression. It has a node for every construct that can be written, also for those
that no expression may use.
-/
namespace SceneTemplates

/-- A constant written in an expression. -/
inductive Constant where
  | null
  | bool (b : Bool)
  | number (n : Number)
  | text (t : Text)
  deriving DecidableEq

namespace Constant

def value : Constant → Value
  | .null => .null
  | .bool b => .bool b
  | .number n => .number n
  | .text t => .text t

end Constant

mutual

inductive Expr where
  | constant (c : Constant)
  | name (t : Text)
  | this
  | member (object : Expr) (property : Text)
  | index (object : Expr) (key : Expr)
  | binary (op : BinaryOperator) (left right : Expr)
  | unary (op : UnaryOperator) (operand : Expr)
  | conditional (test consequent alternate : Expr)
  | call (callee : Expr) (arguments : List Expr)
  | new (callee : Expr) (arguments : List Expr)
  | assign (op : AssignmentOperator) (target value : Expr)
  | update (op : UpdateOperator) (argument : Expr) (leading : Bool)
  | sequence (items : List Expr)
  | spread (argument : Expr)
  | array (elements : List Expr)
  | object (properties : List Property)

/-- A part of an object literal. -/
inductive Property where
  | keyed (key : PropertyKey) (value : Expr)
  /-- A name that is key and value at once. -/
  | shorthand (name : Text)
  | spread (argument : Expr)

inductive PropertyKey where
  | name (t : Text)
  | constant (c : Constant)
  | computed (e : Expr)

end

instance : Inhabited Expr := ⟨.this⟩

end SceneTemplates
