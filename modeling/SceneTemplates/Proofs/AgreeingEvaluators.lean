import SceneTemplates.Expression.Evaluation
import SceneTemplates.Proofs.VisitedNodes

/-!
# Agreeing evaluators

What an evaluation does is settled by the nodes of the tree: whether their depth is allowed, what
the names among them are, and what the names that they call refer to. Two evaluators that agree on
this for all nodes of a tree evaluate it by the same steps, whatever else sets them apart.
-/
namespace SceneTemplates.Evaluator

variable {σ : Type} {ev ev' : Evaluator σ}

/-- Two evaluators that treat the nodes of a list alike. -/
structure Agrees (ev ev' : Evaluator σ) (nodes : List (Nat × Expr)) : Prop where
  source : ev'.source = ev.source
  nullSafeMember : ev'.options.nullSafeMember = ev.options.nullSafeMember
  depth : ∀ node ∈ nodes, ev'.options.maxDepth < node.1 ↔ ev.options.maxDepth < node.1
  lookup : ∀ node ∈ nodes, ∀ t, node.2 = .name t →
    ev'.environment.lookup t = ev.environment.lookup t
  callee : ∀ node ∈ nodes, ∀ t, node.2.calledName? = some t →
    ev'.environment.callee? t = ev.environment.callee? t
  call : ∀ node ∈ nodes, ∀ t, node.2.calledName? = some t →
    ∀ f, ev.environment.callee? t = some (.function f) → ev'.call t f = ev.call t f

/-- Evaluators that agree on nodes agree on some of them. -/
theorem Agrees.mono {nodes some : List (Nat × Expr)} (h : Agrees ev ev' nodes)
    (hsub : some ⊆ nodes) : Agrees ev ev' some where
  source := h.source
  nullSafeMember := h.nullSafeMember
  depth node hnode := h.depth node (hsub hnode)
  lookup node hnode := h.lookup node (hsub hnode)
  callee node hnode := h.callee node (hsub hnode)
  call node hnode := h.call node (hsub hnode)

theorem Agrees.fail {α : Type} {nodes : List (Nat × Expr)} (h : Agrees ev ev' nodes)
    (cause : ExpressionCause) : (ev'.fail cause : Evaluation σ α) = ev.fail cause := by
  simp only [Evaluator.fail, h.source]

theorem Agrees.result {α : Type} {nodes : List (Nat × Expr)} (h : Agrees ev ev' nodes)
    (outcome : Except ExpressionCause α) : ev'.result outcome = ev.result outcome := by
  cases outcome with
  | ok a => rfl
  | error cause => exact h.fail cause

theorem Agrees.member {nodes : List (Nat × Expr)} (h : Agrees ev ev' nodes) (v : Value)
    (property : Text) : ev'.member v property = ev.member v property := by
  simp only [Evaluator.member, h.nullSafeMember, h.fail]

/-- The check of the depth of a node. -/
theorem Agrees.checked {α : Type} {nodes : List (Nat × Expr)} {depth : Nat} {e : Expr}
    (h : Agrees ev ev' nodes) (he : (depth, e) ∈ nodes) {m m' : Evaluation σ α} (hm : m' = m) :
    (if ev'.options.maxDepth < depth then ev'.fail .tooDeep else m') =
      if ev.options.maxDepth < depth then ev.fail .tooDeep else m := by
  simp only [h.depth _ he, h.fail, hm]

mutual

/-- Two evaluators that agree on the nodes of a tree evaluate it by the same steps. -/
theorem evaluate_congr (e : Expr) (depth : Nat) (h : Agrees ev ev' (e.nodes depth)) :
    ev'.evaluate depth e = ev.evaluate depth e := by
  have hself := Expr.self_mem_nodes depth e
  rw [evaluate.eq_def, evaluate.eq_def]
  refine h.checked hself ?_
  match e with
  | .constant _ => rfl
  | .name t => simp only [h.lookup _ hself t rfl]
  | .unary op operand =>
    have hoperand := evaluate_congr operand (depth + 1) (h.mono (by simp [Expr.nodes]))
    simp only [hoperand, h.result]
  | .binary op left right =>
    have hleft := evaluate_congr left (depth + 1) (h.mono (by simp [Expr.nodes]))
    have hright := evaluate_congr right (depth + 1) (h.mono (by simp [Expr.nodes]))
    simp only [hleft, hright, h.result]
  | .conditional test consequent alternate =>
    have htest := evaluate_congr test (depth + 1) (h.mono (by simp [Expr.nodes]))
    have hconsequent := evaluate_congr consequent (depth + 1)
      (h.mono fun node hnode => by simp [Expr.nodes, hnode])
    have halternate := evaluate_congr alternate (depth + 1)
      (h.mono fun node hnode => by simp [Expr.nodes, hnode])
    simp only [htest, hconsequent, halternate]
  | .member base property =>
    have hbase := evaluate_congr base (depth + 1) (h.mono (by simp [Expr.nodes]))
    simp only [hbase, h.member]
  | .call callee args =>
    have hargs := evaluateAll_congr args (depth + 1) (h.mono (by simp [Expr.nodes]))
    cases callee with
    | name t =>
      dsimp only
      rw [h.callee _ hself t rfl, hargs]
      split
      · next f hf => rw [h.call _ hself t rfl f hf]
      · exact h.fail _
    | _ => exact h.fail _
  | .array elements =>
    have helements := evaluateAll_congr elements (depth + 1) (h.mono (by simp [Expr.nodes]))
    simp only [helements]
  | .object properties =>
    have hproperties := evaluateProperties_congr properties [] (depth + 1)
      (h.mono (by simp [Expr.nodes]))
    simp only [hproperties]
  | .this | .index _ _ | .new _ _ | .assign _ _ _ | .update _ _ _ | .sequence _ | .spread _ =>
    exact h.fail _

theorem evaluateAll_congr (es : List Expr) (depth : Nat)
    (h : Agrees ev ev' (Expr.nodesOfAll depth es)) :
    ev'.evaluateAll depth es = ev.evaluateAll depth es := by
  match es with
  | [] => rfl
  | e :: rest =>
    have hfirst := evaluate_congr e depth (h.mono (by simp [Expr.nodesOfAll]))
    have hrest := evaluateAll_congr rest depth (h.mono (by simp [Expr.nodesOfAll]))
    rw [evaluateAll, evaluateAll, hfirst, hrest]

theorem evaluateProperties_congr (ps : List Property) (entries : Entries Value) (depth : Nat)
    (h : Agrees ev ev' (Expr.nodesOfProperties depth ps)) :
    ev'.evaluateProperties depth entries ps = ev.evaluateProperties depth entries ps := by
  match ps with
  | [] => rfl
  | .keyed key value :: rest =>
    have hkey := evaluateKey_congr key depth (h.mono (by simp [Expr.nodesOfProperties]))
    have hvalue := evaluate_congr value depth (h.mono (by simp [Expr.nodesOfProperties]))
    have hrest := fun stored =>
      evaluateProperties_congr rest stored depth (h.mono (by simp [Expr.nodesOfProperties]))
    rw [evaluateProperties, evaluateProperties]
    simp only [hkey, hvalue, hrest]
  | .shorthand t :: rest =>
    have hself : (depth, .name t) ∈ Expr.nodesOfProperties depth (.shorthand t :: rest) := by
      simp [Expr.nodesOfProperties]
    have hname : ev'.name depth t = ev.name depth t :=
      h.checked hself (by rw [h.lookup _ hself t rfl])
    have hrest := fun stored =>
      evaluateProperties_congr rest stored depth (h.mono (by simp [Expr.nodesOfProperties]))
    rw [evaluateProperties, evaluateProperties]
    simp only [hname, hrest]
  | .spread _ :: _ => exact h.fail _

theorem evaluateKey_congr (key : PropertyKey) (depth : Nat)
    (h : Agrees ev ev' (Expr.nodesOfKey depth key)) :
    ev'.evaluateKey depth key = ev.evaluateKey depth key := by
  match key with
  | .name _ | .constant _ => rfl
  | .computed e =>
    rw [Expr.nodesOfKey] at h
    rw [evaluateKey, evaluateKey, evaluate_congr e depth h]

end

end SceneTemplates.Evaluator
