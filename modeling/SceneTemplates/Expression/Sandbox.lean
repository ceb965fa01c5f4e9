import SceneTemplates.Expression.Evaluation
import SceneTemplates.Expression.Parser

/-!
# Sandboxes

A sandbox evaluates sources against one environment. It validates each distinct source once and
keeps its tree. A source that fails is not kept and is examined anew the next time.
-/
namespace SceneTemplates

/-- An environment with options and the trees of the sources validated so far. -/
structure Sandbox where
  environment : Environment
  options : SandboxOptions
  validated : Entries Expr

namespace Sandbox

/-- A fresh sandbox over data, with the global environment behind it. -/
def ofData (data : Entries Value) (options : SandboxOptions) : Sandbox :=
  ⟨⟨data, globalEnvironment⟩, options, []⟩

/-- The tree of a source, by the length, the syntax and the rules of validation in this order. -/
def examine (s : Sandbox) (source : Text) : Except ExpressionError Expr := do
  if s.options.maxLength < source.length then
    throw (.inSource source (.tooLong s.options.maxLength))
  let tree ← parse source s.options.maxDepth
  match validate s.environment s.options tree with
  | .ok _ => return tree
  | .error cause => throw (.inSource source cause)

/-- The tree of a source and the sandbox that keeps it. -/
def compile (s : Sandbox) (source : Text) : Except ExpressionError (Expr × Sandbox) :=
  match s.validated.get? source with
  | some tree => .ok (tree, s)
  | none =>
    (s.examine source).map fun tree =>
      (tree, { s with validated := s.validated.put source tree })

def evaluator {σ : Type} (s : Sandbox) (host : Host σ) (source : Text) : Evaluator σ :=
  ⟨s.environment, host, s.options, source⟩

/-- The value of a source, with the sandbox and the state of the host after it. -/
def evaluate {σ : Type} (s : Sandbox) (host : Host σ) (source : Text) (state : σ) :
    Except ExpressionError Value × Sandbox × σ :=
  match s.compile source with
  | .error e => (.error e, s, state)
  | .ok (tree, s) =>
    let (outcome, state) := tree.evaluate (s.evaluator host source) state
    (outcome, s, state)

def set (s : Sandbox) (key : Text) (value : Value) : Sandbox :=
  { s with environment := { s.environment with data := s.environment.data.put key value } }

def delete (s : Sandbox) (key : Text) : Sandbox :=
  { s with environment := { s.environment with data := s.environment.data.erase key } }

@[simp] theorem compile_cached {s : Sandbox} {source : Text} {tree : Expr}
    (h : s.validated.get? source = some tree) : s.compile source = .ok (tree, s) := by
  simp [compile, h]

end Sandbox

end SceneTemplates
