import SceneTemplates.Proofs.CheckedEvaluation

/-!
# Related evaluations

A relation between the computations of two evaluators carries over to the evaluations of every tree,
if the steps that these are put together from respect it: a value, a sequence of two computations,
the check of the depth, an error of the evaluator, a member and a call. The two may stand at
different depths, as long as these are related and stay so one level further down. The errors of the
operators are never about members of null, so that the relation has to say nothing on such errors
outside of members.
-/
namespace SceneTemplates

namespace Value

theorem not_nullDereference_of_operate {op : BinaryOperator} {a b : Value} {cause : ExpressionCause}
    (h : operate op a b = .error cause) : cause.kind ≠ .nullDereference := by
  have hruntime : cause.kind = .runtimeTypeError → cause.kind ≠ .nullDereference := by
    intro hkind
    rw [hkind]
    decide
  by_cases hop : op.isAllowed = true
  · cases op with
    | and | or | nullish =>
      cases h
      decide
    | _ => exact hruntime (operate_error hop (by decide) (by decide) (by decide) h)
  · cases op <;> first | exact absurd rfl hop | (cases h; decide)

theorem not_nullDereference_of_operateUnary {op : UnaryOperator} {v : Value}
    {cause : ExpressionCause} (h : v.operateUnary op = .error cause) :
    cause.kind ≠ .nullDereference := by
  by_cases hop : op.isAllowed = true
  · rw [operateUnary_error hop h]
    decide
  · cases op <;> first | exact absurd rfl hop | (cases h; decide)

end Value

namespace Evaluator

variable {σ τ : Type}

/-- A relation between computations that the steps of two evaluators with one environment respect,
from depths in a relation. -/
structure Respected (ev : Evaluator σ) (ev' : Evaluator τ) (D : Nat → Nat → Prop)
    (P : (α : Type) → Evaluation σ α → Evaluation τ α → Prop) : Prop where
  environment : ev'.environment = ev.environment
  below : ∀ {depth depth'}, D depth depth' → D (depth + 1) (depth' + 1)
  checked : ∀ {α : Type} {m : Evaluation σ α} {m' : Evaluation τ α} {depth depth' : Nat},
    D depth depth' → P α m m' →
      P α (if ev.options.maxDepth < depth then ev.fail .tooDeep else m)
        (if ev'.options.maxDepth < depth' then ev'.fail .tooDeep else m')
  ofPure : ∀ {α : Type} (a : α), P α (pure a) (pure a)
  andThen : ∀ {α β : Type} {m : Evaluation σ α} {m' : Evaluation τ α} {f : α → Evaluation σ β}
    {f' : α → Evaluation τ β}, P α m m' → (∀ a, P β (f a) (f' a)) → P β (m >>= f) (m' >>= f')
  fail : ∀ {α : Type} (cause : ExpressionCause), cause.kind ≠ .nullDereference →
    P α (ev.fail cause) (ev'.fail cause)
  member : ∀ object property, P Value (ev.member object property) (ev'.member object property)
  call : ∀ name f args, P Value (ev.call name f args) (ev'.call name f args)

namespace Respected

variable {ev : Evaluator σ} {ev' : Evaluator τ} {D : Nat → Nat → Prop}
  {P : (α : Type) → Evaluation σ α → Evaluation τ α → Prop}

theorem ite {α : Type} {c : Prop} [Decidable c] {m n : Evaluation σ α} {m' n' : Evaluation τ α}
    (hm : P α m m') (hn : P α n n') : P α (if c then m else n) (if c then m' else n') := by
  split
  · exact hm
  · exact hn

theorem result (h : Respected ev ev' D P) {α : Type} {outcome : Except ExpressionCause α}
    (ho : ∀ cause, outcome = .error cause → cause.kind ≠ .nullDereference) :
    P α (ev.result outcome) (ev'.result outcome) := by
  cases outcome with
  | ok a => exact h.ofPure a
  | error cause => exact h.fail cause (ho cause rfl)

end Respected

variable {ev : Evaluator σ} {ev' : Evaluator τ} {D : Nat → Nat → Prop}
  {P : (α : Type) → Evaluation σ α → Evaluation τ α → Prop}

mutual

/-- The evaluations of a tree by two evaluators are related. -/
theorem evaluate_related (h : Respected ev ev' D P) (e : Expr) {depth depth' : Nat}
    (hd : D depth depth') : P Value (ev.evaluate depth e) (ev'.evaluate depth' e) := by
  have hbelow := h.below hd
  rw [evaluate.eq_def, evaluate.eq_def]
  refine h.checked hd ?_
  match e with
  | .constant c => exact h.ofPure _
  | .name t =>
    dsimp only
    rw [h.environment]
    exact h.ofPure _
  | .unary op operand =>
    refine h.andThen (evaluate_related h operand hbelow) fun v => ?_
    exact h.result fun _ => Value.not_nullDereference_of_operateUnary
  | .binary op left right =>
    have hright := evaluate_related h right hbelow
    refine h.andThen (evaluate_related h left hbelow) fun a => ?_
    cases op with
    | and => exact Respected.ite hright (h.ofPure a)
    | or => exact Respected.ite (h.ofPure a) hright
    | nullish => exact Respected.ite hright (h.ofPure a)
    | _ => exact h.andThen hright fun b => h.result fun _ => Value.not_nullDereference_of_operate
  | .conditional test consequent alternate =>
    refine h.andThen (evaluate_related h test hbelow) fun t => ?_
    exact Respected.ite (evaluate_related h consequent hbelow)
      (evaluate_related h alternate hbelow)
  | .member object property =>
    exact h.andThen (evaluate_related h object hbelow) fun v => h.member v property
  | .call callee args =>
    cases callee with
    | name t =>
      dsimp only
      rw [h.environment]
      split
      · exact h.andThen (evaluateAll_related h args hbelow) fun values => h.call _ _ values
      · exact h.fail _ (by simp [ExpressionCause.kind])
    | _ => exact h.fail _ (by decide)
  | .array elements =>
    exact h.andThen (evaluateAll_related h elements hbelow) fun values => h.ofPure _
  | .object properties =>
    exact h.andThen (evaluateProperties_related h [] properties hbelow) fun entries => h.ofPure _
  | .this | .index _ _ | .new _ _ | .assign _ _ _ | .update _ _ _ | .sequence _ | .spread _ =>
    exact h.fail _ (by decide)

theorem evaluateAll_related (h : Respected ev ev' D P) (es : List Expr) {depth depth' : Nat}
    (hd : D depth depth') :
    P (List Value) (ev.evaluateAll depth es) (ev'.evaluateAll depth' es) := by
  match es with
  | [] =>
    rw [evaluateAll, evaluateAll]
    exact h.ofPure _
  | e :: rest =>
    rw [evaluateAll, evaluateAll]
    refine h.andThen (evaluate_related h e hd) fun v => ?_
    exact h.andThen (evaluateAll_related h rest hd) fun values => h.ofPure _

theorem evaluateProperties_related (h : Respected ev ev' D P) (entries : Entries Value)
    (ps : List Property) {depth depth' : Nat} (hd : D depth depth') :
    P (Entries Value) (ev.evaluateProperties depth entries ps)
      (ev'.evaluateProperties depth' entries ps) := by
  match ps with
  | [] =>
    rw [evaluateProperties, evaluateProperties]
    exact h.ofPure _
  | .keyed key value :: rest =>
    rw [evaluateProperties, evaluateProperties]
    refine h.andThen (evaluateKey_related h key hd) fun k => ?_
    refine h.andThen (evaluate_related h value hd) fun v => ?_
    exact evaluateProperties_related h _ rest hd
  | .shorthand t :: rest =>
    rw [evaluateProperties, evaluateProperties]
    have hname : P Value (ev.name depth t) (ev'.name depth' t) := by
      unfold name
      rw [h.environment]
      exact h.checked hd (h.ofPure _)
    exact h.andThen hname fun v => evaluateProperties_related h _ rest hd
  | .spread _ :: _ =>
    rw [evaluateProperties, evaluateProperties]
    exact h.fail _ (by decide)

theorem evaluateKey_related (h : Respected ev ev' D P) (key : PropertyKey) {depth depth' : Nat}
    (hd : D depth depth') :
    P Text (ev.evaluateKey depth key) (ev'.evaluateKey depth' key) := by
  rw [evaluateKey.eq_def, evaluateKey.eq_def]
  match key with
  | .name t => exact h.ofPure _
  | .constant c => exact h.ofPure _
  | .computed e => exact h.andThen (evaluate_related h e hd) fun v => h.ofPure _

end

end Evaluator

end SceneTemplates
