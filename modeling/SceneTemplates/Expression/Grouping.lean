import SceneTemplates.Expression.Tree

/-!
# Grouping of operators

A row of operands with binary operators between them becomes one tree. Each operator is attached
to the tree of all operands before it: it takes over the right operands of those operators on the
right edge that bind less tightly, and has everything else as its left side.
-/
namespace SceneTemplates

/-- A tree of operators over operands that are closed to it. -/
inductive OperatorTree where
  | operand (e : Expr)
  | node (op : BinaryOperator) (left right : OperatorTree)

namespace OperatorTree

/-- Attaches an operator with its right operand behind a tree. -/
def attach (op : BinaryOperator) (operand : Expr) : OperatorTree → OperatorTree
  | .operand e => .node op (.operand e) (.operand operand)
  | .node former left right =>
    if op.takesFrom former then .node former left (attach op operand right)
    else .node op (.node former left right) (.operand operand)

/-- The tree of a row of operands. -/
def ofRow (first : Expr) (row : List (BinaryOperator × Expr)) : OperatorTree :=
  row.foldl (fun tree item => attach item.1 item.2 tree) (.operand first)

/-- The expression of a tree. -/
def toExpr : OperatorTree → Expr
  | .operand e => e
  | .node op left right => .binary op left.toExpr right.toExpr

end OperatorTree

end SceneTemplates
