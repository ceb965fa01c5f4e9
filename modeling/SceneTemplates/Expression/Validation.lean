import SceneTemplates.Expression.Environment
import SceneTemplates.Expression.Options
import SceneTemplates.Expression.Tree

/-!
# Validation

Before an expression is evaluated its tree is checked from the left: allowed constructs and
operators only, calls of known functions by name, and bounds on depth and number of nodes. At
each node the depth is checked first, then the count, then the node itself; the first violation
is the error.
-/
namespace SceneTemplates

/-- Members that no expression may name. -/
def forbiddenProperties : List Text := ["__proto__", "prototype", "constructor"]

namespace Validation

/-- Counts one node at a depth, within the bounds. -/
def enter (options : SandboxOptions) (depth count : Nat) : Except ExpressionCause Nat :=
  if options.maxDepth < depth then .error .tooDeep
  else if options.maxNodes < (count + 1 : Nat) then .error .tooComplex
  else .ok (count + 1)

mutual

/-- Checks a tree at a depth. The count of the nodes visited so far goes in and out. -/
def visit (env : Environment) (options : SandboxOptions) (depth count : Nat) :
    Expr → Except ExpressionCause Nat
  | .constant _ => enter options depth count
  | .name _ => enter options depth count
  | .unary op operand => do
    let count ← enter options depth count
    if op.isAllowed then visit env options (depth + 1) count operand
    else .error (.unaryOperator op)
  | .binary op left right => do
    let count ← enter options depth count
    if op.isAllowed then do
      let count ← visit env options (depth + 1) count left
      visit env options (depth + 1) count right
    else .error (.binaryOperator op)
  | .conditional test consequent alternate => do
    let count ← enter options depth count
    let count ← visit env options (depth + 1) count test
    let count ← visit env options (depth + 1) count consequent
    visit env options (depth + 1) count alternate
  | .index _ _ => do
    let _ ← enter options depth count
    .error .computedMember
  | .member object property => do
    let count ← enter options depth count
    if forbiddenProperties.contains property then .error (.forbiddenProperty property)
    else visit env options (depth + 1) count object
  | .call callee args => do
    let count ← enter options depth count
    match callee with
    | .name name =>
      if env.canCall name then visitAll env options (depth + 1) count args
      else .error (.functionNotFound name)
    | _ => .error .methodCall
  | .array elements => do
    let count ← enter options depth count
    visitAll env options (depth + 1) count elements
  | .object properties => do
    let count ← enter options depth count
    visitProperties env options (depth + 1) count properties
  | .this => do
    let _ ← enter options depth count
    .error (.forbidden .this)
  | .new _ _ => do
    let _ ← enter options depth count
    .error (.forbidden .new)
  | .assign _ _ _ => do
    let _ ← enter options depth count
    .error (.forbidden .assignment)
  | .update _ _ _ => do
    let _ ← enter options depth count
    .error (.forbidden .update)
  | .sequence _ => do
    let _ ← enter options depth count
    .error (.forbidden .sequence)
  | .spread _ => do
    let _ ← enter options depth count
    .error (.forbidden .spread)

def visitAll (env : Environment) (options : SandboxOptions) (depth count : Nat) :
    List Expr → Except ExpressionCause Nat
  | [] => .ok count
  | e :: rest => do
    let count ← visit env options depth count e
    visitAll env options depth count rest

/-- Checks the parts of an object literal. A key counts only if it is computed. -/
def visitProperties (env : Environment) (options : SandboxOptions) (depth count : Nat) :
    List Property → Except ExpressionCause Nat
  | [] => .ok count
  | .keyed key value :: rest => do
    let count ← visitKey env options depth count key
    let count ← visit env options depth count value
    visitProperties env options depth count rest
  | .shorthand _ :: rest => do
    let count ← enter options depth count
    visitProperties env options depth count rest
  | .spread _ :: _ => do
    let _ ← enter options depth count
    .error (.forbidden .spread)

def visitKey (env : Environment) (options : SandboxOptions) (depth count : Nat) :
    PropertyKey → Except ExpressionCause Nat
  | .computed e => visit env options depth count e
  | _ => .ok count

end

end Validation

/-- Checks a tree from its root. -/
def validate (env : Environment) (options : SandboxOptions) (e : Expr) :
    Except ExpressionCause Unit :=
  (Validation.visit env options 0 0 e).map fun _ => ()

end SceneTemplates
