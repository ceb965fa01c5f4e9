import SceneTemplates.Expression.Operation
import SceneTemplates.Expression.Validation
import SceneTemplates.Functions.Catalogue

/-!
# Evaluation

The value of a tree in an environment. Operands are evaluated from the left, and only those that
are needed. The depth is checked at every node, and a construct without a value is an error, so
that a tree need not have been validated.

The result of an evaluation carries the state of the host also when it is an error: functions
that were called before it keep their effect.
-/
namespace SceneTemplates

/-- A computation over the state of a host that may end with an error. -/
abbrev Evaluation (σ α : Type) := ExceptT ExpressionError (StateM σ) α

/-- What an evaluation refers to. -/
structure Evaluator (σ : Type) where
  environment : Environment
  host : Host σ
  options : SandboxOptions
  /-- The text of the expression, for messages. -/
  source : Text

namespace Evaluator

variable {σ : Type}

def fail {α : Type} (ev : Evaluator σ) (cause : ExpressionCause) : Evaluation σ α :=
  throw (.inSource ev.source cause)

/-- The result of an operation, or the end of the evaluation. -/
def result {α : Type} (ev : Evaluator σ) (outcome : Except ExpressionCause α) :
    Evaluation σ α :=
  match outcome with
  | .ok a => pure a
  | .error cause => ev.fail cause

/-- Calls a function that an expression refers to by a name. An error that a host function
raised by itself is passed on unchanged. -/
def call (ev : Evaluator σ) (name : Text) (f : Function) (args : List Value) :
    Evaluation σ Value :=
  match f with
  | .builtin g =>
    match g.apply args with
    | .ok v => pure v.collapse
    | .error .refused => ev.fail (.callFailed name (ev.host.wording.words g args))
    | .error (.tooLarge h) => ev.fail (.resultTooLarge name h Integer.maxExactBits)
  | .host _ hostName => do
    match ← (modifyGet (ev.host.call hostName args) : StateM σ _) with
    | .ok v => pure v.collapse
    | .error (.failed words) => ev.fail (.callFailed name words)
    | .error (.raised e) => throw e

def member (ev : Evaluator σ) (object : Value) (property : Text) : Evaluation σ Value :=
  if forbiddenProperties.contains property then ev.fail (.forbiddenProperty property)
  else if object.isNullish then
    if ev.options.nullSafeMember then pure .undefined
    else ev.fail (.nullMember property (decide (object.kind = .null)))
  else pure (object.property property)

def name (ev : Evaluator σ) (depth : Nat) (t : Text) : Evaluation σ Value :=
  if ev.options.maxDepth < depth then ev.fail .tooDeep
  else pure (ev.environment.lookup t)

mutual

/-- The value of a tree at a depth. -/
def evaluate (ev : Evaluator σ) (depth : Nat) (e : Expr) : Evaluation σ Value :=
  if ev.options.maxDepth < depth then ev.fail .tooDeep
  else
    match e with
    | .constant c => pure c.value
    | .name t => pure (ev.environment.lookup t)
    | .unary op operand => do
      let v ← evaluate ev (depth + 1) operand
      ev.result (v.operateUnary op)
    | .binary op left right => do
      let a ← evaluate ev (depth + 1) left
      match op with
      | .and => if a.isTruthy then evaluate ev (depth + 1) right else pure a
      | .or => if a.isTruthy then pure a else evaluate ev (depth + 1) right
      | .nullish => if a.isNullish then evaluate ev (depth + 1) right else pure a
      | op => do
        let b ← evaluate ev (depth + 1) right
        ev.result (Value.operate op a b)
    | .conditional test consequent alternate => do
      let t ← evaluate ev (depth + 1) test
      if t.isTruthy then evaluate ev (depth + 1) consequent
      else evaluate ev (depth + 1) alternate
    | .member object property => do
      let v ← evaluate ev (depth + 1) object
      ev.member v property
    | .call callee args =>
      match callee with
      | .name t =>
        match ev.environment.callee? t with
        | some (.function f) => do
          let values ← evaluateAll ev (depth + 1) args
          ev.call t f values
        | _ => ev.fail (.functionGone t)
      | _ => ev.fail .methodCall
    | .array elements => do
      let values ← evaluateAll ev (depth + 1) elements
      pure (Value.newList values)
    | .object properties => do
      let entries ← evaluateProperties ev (depth + 1) [] properties
      pure (Value.newMapping entries)
    | .this => ev.fail (.unsupported "ThisExpression")
    | .index _ _ => ev.fail (.unsupported "IndexAccess")
    | .new _ _ => ev.fail (.unsupported "NewExpression")
    | .assign _ _ _ => ev.fail (.unsupported "Assignment")
    | .update _ _ _ => ev.fail (.unsupported "Update")
    | .sequence _ => ev.fail (.unsupported "Sequence")
    | .spread _ => ev.fail (.unsupported "Spread")

def evaluateAll (ev : Evaluator σ) (depth : Nat) : List Expr → Evaluation σ (List Value)
  | [] => pure []
  | e :: rest => do
    let v ← evaluate ev depth e
    let values ← evaluateAll ev depth rest
    pure (v :: values)

/-- The entries of an object literal, stored behind those already there. -/
def evaluateProperties (ev : Evaluator σ) (depth : Nat) (entries : Entries Value) :
    List Property → Evaluation σ (Entries Value)
  | [] => pure entries
  | .keyed key value :: rest => do
    let k ← evaluateKey ev depth key
    let v ← evaluate ev depth value
    evaluateProperties ev depth (entries.put k v) rest
  | .shorthand t :: rest => do
    let v ← ev.name depth t
    evaluateProperties ev depth (entries.put t v) rest
  | .spread _ :: _ => ev.fail (.unsupported "Spread")

def evaluateKey (ev : Evaluator σ) (depth : Nat) : PropertyKey → Evaluation σ Text
  | .name t => pure t
  | .constant c => pure c.value.toText
  | .computed e => do
    let v ← evaluate ev depth e
    pure v.toText

end

end Evaluator

/-- The value of a tree with the state of the host after it. -/
def Expr.evaluate {σ : Type} (ev : Evaluator σ) (e : Expr) (state : σ) :
    Except ExpressionError Value × σ :=
  (ev.evaluate 0 e).run.run state

end SceneTemplates
