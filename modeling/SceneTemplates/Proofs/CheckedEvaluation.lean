import SceneTemplates.Proofs.CheckedTrees
import SceneTemplates.Proofs.FixedData

/-!
# Evaluation of checked trees

Validation and evaluation walk the tree by the same rules, so that an evaluation of a checked tree
meets no construct, operator, member or depth that evaluation refuses. What can still go wrong lies
in the values: an operand that has no number, a member of null, or a call of a function.

The tree may have been checked against other data. Then only the call of a function that is gone
comes on top.
-/
namespace SceneTemplates

/-- The host raises an expression error of its own in some call. -/
def Host.Raises {σ : Type} (host : Host σ) (e : ExpressionError) : Prop :=
  ∃ name args state, (host.call name args state).1 = .error (.raised e)

open Step (FailsOnly)

namespace Value

/-- What an operand is converted to fails only for the want of a number. -/
theorem toNumber_error {v : Value} {cause : ExpressionCause} (h : v.toNumber = .error cause) :
    cause.kind = .runtimeTypeError := by
  cases v <;> first | (cases h; rfl) | cases h

theorem arithmetic_error {f : Number → Number → Except ArithmeticFault Number} {a b : Value}
    {cause : ExpressionCause} (h : arithmetic f a b = .error cause) :
    cause.kind = .runtimeTypeError := by
  simp only [arithmetic] at h
  cases ha : a.toNumber with
  | error e =>
    rw [ha] at h
    cases h
    exact toNumber_error ha
  | ok x =>
    cases hb : b.toNumber with
    | error e =>
      rw [ha, hb] at h
      cases h
      exact toNumber_error hb
    | ok y =>
      simp only [ha, hb, bind, Except.bind] at h
      split at h
      · cases h
      · cases h
        rfl

theorem plus_error {a b : Value} {cause : ExpressionCause} (h : plus a b = .error cause) :
    cause.kind = .runtimeTypeError := by
  simp only [plus] at h
  split at h
  · cases h
  · cases h
  · cases hr : arithmetic Number.add a b with
    | ok v =>
      rw [hr] at h
      cases h
    | error e =>
      rw [hr] at h
      cases h
      exact arithmetic_error hr

theorem relation_error {onTexts : Text → Text → Bool} {onNumbers : Number → Number → Bool}
    {a b : Value} {cause : ExpressionCause} (h : relation onTexts onNumbers a b = .error cause) :
    cause.kind = .runtimeTypeError := by
  simp only [relation] at h
  split at h
  · cases h
  · cases ha : a.toNumber with
    | error e =>
      rw [ha] at h
      cases h
      exact toNumber_error ha
    | ok x =>
      cases hb : b.toNumber with
      | error e =>
        rw [ha, hb] at h
        cases h
        exact toNumber_error hb
      | ok y =>
        rw [ha, hb] at h
        cases h

theorem map_arithmetic_error {f : Number → Number → Except ArithmeticFault Number} {a b : Value}
    {g : Value → Value} {cause : ExpressionCause}
    (h : (arithmetic f a b).map g = .error cause) : cause.kind = .runtimeTypeError := by
  cases hr : arithmetic f a b with
  | ok v =>
    rw [hr] at h
    cases h
  | error e =>
    rw [hr] at h
    cases h
    exact arithmetic_error hr

/-- An allowed operator that needs both operands fails only for the want of a number. -/
theorem operate_error {op : BinaryOperator} {a b : Value} {cause : ExpressionCause}
    (hop : op.isAllowed = true) (hand : op ≠ .and) (hor : op ≠ .or) (hnullish : op ≠ .nullish)
    (h : operate op a b = .error cause) : cause.kind = .runtimeTypeError := by
  cases op with
  | nullish => exact absurd rfl hnullish
  | or => exact absurd rfl hor
  | and => exact absurd rfl hand
  | equal | notEqual | strictEqual | strictNotEqual => cases h
  | less | lessEqual | greater | greaterEqual => exact relation_error h
  | plus => exact plus_error h
  | minus | times => exact map_arithmetic_error h
  | divide | modulo | power => exact arithmetic_error h
  | bitOr | bitXor | bitAnd | within | instanceOf | shiftLeft | shiftRight
  | shiftRightUnsigned => cases hop

theorem operateUnary_error {op : UnaryOperator} {v : Value} {cause : ExpressionCause}
    (hop : op.isAllowed = true) (h : v.operateUnary op = .error cause) :
    cause.kind = .runtimeTypeError := by
  have hnumber : ∀ {f : Number → Value},
      (do return f (← v.toNumber) : Except ExpressionCause Value) = .error cause →
        cause.kind = .runtimeTypeError := by
    intro f hf
    cases hv : v.toNumber with
    | ok n =>
      rw [hv] at hf
      cases hf
    | error e =>
      rw [hv] at hf
      cases hf
      exact toNumber_error hv
  cases op with
  | not => cases h
  | plus => exact hnumber h
  | minus => exact hnumber h
  | bitNot | typeof => cases hop

end Value

namespace Evaluator

variable {σ : Type} {ev : Evaluator σ}

/-- An error that the evaluation of a checked tree can still end with: a value without a number or
a failed call, a member of null where that is an error, or what a host function raised. -/
def Residual (ev : Evaluator σ) (e : ExpressionError) : Prop :=
  (∃ cause, e = .inSource ev.source cause ∧
    (cause.kind = .runtimeTypeError ∨
      cause.kind = .nullDereference ∧ ev.options.nullSafeMember = false)) ∨
  ev.host.Raises e

/-- A call of a function that was there when the tree was checked and is not there any more. -/
def Lost (ev : Evaluator σ) (checked : Environment) (e : ExpressionError) : Prop :=
  ∃ name, checked.canCall name = true ∧ ev.environment.canCall name = false ∧
    e = .inSource ev.source (.functionGone name)

/-- The errors of a tree that was checked in some environment. -/
def CheckedError (ev : Evaluator σ) (checked : Environment) (e : ExpressionError) : Prop :=
  ev.Residual e ∨ ev.Lost checked e

theorem fail_runtime {α : Type} {checked : Environment} {cause : ExpressionCause}
    (h : cause.kind = .runtimeTypeError) :
    FailsOnly (ev.CheckedError checked) (ev.fail cause : Evaluation σ α) :=
  FailsOnly.ofThrow (.inl (.inl ⟨cause, rfl, .inl h⟩))

theorem result_runtime {α : Type} {checked : Environment} {outcome : Except ExpressionCause α}
    (h : ∀ cause, outcome = .error cause → cause.kind = .runtimeTypeError) :
    FailsOnly (ev.CheckedError checked) (ev.result outcome) := by
  cases outcome with
  | ok a => exact FailsOnly.ofPure a
  | error cause => exact fail_runtime (h cause rfl)

/-- A member that is not forbidden is an error only of null, and only where that is one. -/
theorem member_fails {checked : Environment} {property : Text} (object : Value)
    (h : forbiddenProperties.contains property = false) :
    FailsOnly (ev.CheckedError checked) (ev.member object property) := by
  unfold member
  rw [if_neg (by rw [h]; exact Bool.false_ne_true)]
  refine FailsOnly.ite ?_ (FailsOnly.ofPure _)
  by_cases hs : ev.options.nullSafeMember = true
  · rw [if_pos hs]
    exact FailsOnly.ofPure _
  · rw [if_neg hs]
    have hf : ev.options.nullSafeMember = false := by simpa using hs
    exact FailsOnly.ofThrow (.inl (.inl ⟨_, rfl, .inr ⟨rfl, hf⟩⟩))

/-- A call fails as a run-time error, or as the host function raised it. -/
theorem call_fails {checked : Environment} (name : Text) (f : Function) (args : List Value) :
    FailsOnly (ev.CheckedError checked) (ev.call name f args) := by
  cases f with
  | builtin g =>
    unfold call
    dsimp only
    split
    · exact FailsOnly.ofPure _
    · exact fail_runtime rfl
    · exact fail_runtime rfl
  | host id hostName =>
    intro state e h
    unfold call at h
    rw [Step.run_bind] at h
    have hrun : (liftM (modifyGet (ev.host.call hostName args) : StateM σ _) :
        Evaluation σ _).run.run state =
          (.ok (ev.host.call hostName args state).1, (ev.host.call hostName args state).2) := rfl
    rw [hrun] at h
    cases hc : (ev.host.call hostName args state).1 with
    | ok v =>
      rw [hc] at h
      cases h
    | error failure =>
      rw [hc] at h
      cases failure with
      | failed =>
        cases h
        exact .inl (.inl ⟨_, rfl, .inl rfl⟩)
      | raised e' =>
        cases h
        exact .inl (.inr ⟨_, _, _, hc⟩)

theorem canCall_of_callee? {env : Environment} {name : Text} {f : Function}
    (h : env.callee? name = some (.function f)) : env.canCall name = true := by
  unfold Environment.canCall
  rw [h]
  rfl

/-- A name that can be called refers to a function. -/
theorem exists_function {env : Environment} {name : Text} (h : env.canCall name = true) :
    ∃ f, env.callee? name = some (.function f) := by
  unfold Environment.canCall at h
  cases hc : env.callee? name with
  | none =>
    rw [hc] at h
    cases h
  | some v =>
    rw [hc] at h
    cases v with
    | function f => exact ⟨f, rfl⟩
    | _ => cases h

variable {checked : Environment}

mutual

/-- A tree that passed the checks in some environment is evaluated at the same depth without any
error that the checks are there to prevent. -/
theorem evaluate_fails (e : Expr) {depth count last : Nat}
    (h : Validation.visit checked ev.options depth count e = .ok last) :
    FailsOnly (ev.CheckedError checked) (ev.evaluate depth e) := by
  rw [evaluate.eq_def, if_neg (Validation.depth_of_visit h)]
  match e with
  | .constant c => exact FailsOnly.ofPure _
  | .name t => exact FailsOnly.ofPure _
  | .unary op operand =>
    obtain ⟨c, -, hop, ho⟩ := Validation.visit_unary_eq_ok.1 h
    refine FailsOnly.andThen (evaluate_fails operand ho) fun v => ?_
    exact result_runtime fun cause hc => Value.operateUnary_error hop hc
  | .binary op left right =>
    obtain ⟨c, -, hop, d, hl, hr⟩ := Validation.visit_binary_eq_ok.1 h
    have hright := evaluate_fails right hr
    refine FailsOnly.andThen (evaluate_fails left hl) fun a => ?_
    split
    · exact FailsOnly.ite hright (FailsOnly.ofPure a)
    · exact FailsOnly.ite (FailsOnly.ofPure a) hright
    · exact FailsOnly.ite hright (FailsOnly.ofPure a)
    · next hand hor hnullish =>
      refine FailsOnly.andThen hright fun b => ?_
      exact result_runtime fun cause hc => Value.operate_error hop hand hor hnullish hc
  | .conditional test consequent alternate =>
    obtain ⟨c, -, d, ht, f, hc, ha⟩ := Validation.visit_conditional_eq_ok.1 h
    refine FailsOnly.andThen (evaluate_fails test ht) fun t => ?_
    exact FailsOnly.ite (evaluate_fails consequent hc) (evaluate_fails alternate ha)
  | .member object property =>
    obtain ⟨c, -, hp, ho⟩ := Validation.visit_member_eq_ok.1 h
    exact FailsOnly.andThen (evaluate_fails object ho) fun v => member_fails v hp
  | .call callee args =>
    obtain ⟨c, -, name, rfl, hname, hargs⟩ := Validation.visit_call_eq_ok.1 h
    dsimp only
    by_cases hgone : ev.environment.canCall name = true
    · obtain ⟨f, hf⟩ := exists_function hgone
      rw [hf]
      exact FailsOnly.andThen (evaluateAll_fails args hargs) fun values => call_fails name f values
    · -- Only a tree that was checked elsewhere gets here.
      have hlost : ev.environment.canCall name = false := by simpa using hgone
      split
      · next f hf => exact absurd (canCall_of_callee? hf) hgone
      · exact FailsOnly.ofThrow (.inr ⟨name, hname, hlost, rfl⟩)
  | .array elements =>
    obtain ⟨c, -, hes⟩ := Validation.visit_array_eq_ok.1 h
    exact FailsOnly.andThen (evaluateAll_fails elements hes) fun values => FailsOnly.ofPure _
  | .object properties =>
    obtain ⟨c, -, hps⟩ := Validation.visit_object_eq_ok.1 h
    exact FailsOnly.andThen (evaluateProperties_fails properties [] hps) fun entries =>
      FailsOnly.ofPure _
  | .this | .index _ _ | .new _ _ | .assign _ _ _ | .update _ _ _ | .sequence _ | .spread _ =>
    rw [Validation.visit] at h
    obtain ⟨c, -, h⟩ := Except.bind_eq_ok.1 h
    cases h

theorem evaluateAll_fails (es : List Expr) {depth count last : Nat}
    (h : Validation.visitAll checked ev.options depth count es = .ok last) :
    FailsOnly (ev.CheckedError checked) (ev.evaluateAll depth es) := by
  rw [evaluateAll.eq_def]
  match es with
  | [] => exact FailsOnly.ofPure _
  | e :: rest =>
    obtain ⟨c, he, hrest⟩ := Validation.visitAll_cons_eq_ok.1 h
    refine FailsOnly.andThen (evaluate_fails e he) fun v => ?_
    exact FailsOnly.andThen (evaluateAll_fails rest hrest) fun values => FailsOnly.ofPure _

theorem evaluateProperties_fails (ps : List Property) (entries : Entries Value)
    {depth count last : Nat}
    (h : Validation.visitProperties checked ev.options depth count ps = .ok last) :
    FailsOnly (ev.CheckedError checked) (ev.evaluateProperties depth entries ps) := by
  match ps with
  | [] =>
    rw [evaluateProperties]
    exact FailsOnly.ofPure _
  | .keyed key value :: rest =>
    obtain ⟨c, hk, d, hv, hrest⟩ := Validation.visitProperties_keyed_eq_ok.1 h
    rw [evaluateProperties]
    refine FailsOnly.andThen (evaluateKey_fails key hk) fun k => ?_
    refine FailsOnly.andThen (evaluate_fails value hv) fun v => ?_
    exact evaluateProperties_fails rest _ hrest
  | .shorthand t :: rest =>
    obtain ⟨c, hc, hrest⟩ := Validation.visitProperties_shorthand_eq_ok.1 h
    rw [evaluateProperties]
    have hname : ev.name depth t = pure (ev.environment.lookup t) := by
      unfold name
      exact if_neg (Validation.enter_eq_ok.1 hc).1
    rw [hname]
    exact FailsOnly.andThen (FailsOnly.ofPure _) fun v => evaluateProperties_fails rest _ hrest
  | .spread _ :: _ => exact absurd h Validation.visitProperties_spread_ne_ok

theorem evaluateKey_fails (key : PropertyKey) {depth count last : Nat}
    (h : Validation.visitKey checked ev.options depth count key = .ok last) :
    FailsOnly (ev.CheckedError checked) (ev.evaluateKey depth key) := by
  rw [evaluateKey.eq_def]
  match key with
  | .name t => exact FailsOnly.ofPure _
  | .constant c => exact FailsOnly.ofPure _
  | .computed e =>
    rw [Validation.visitKey] at h
    exact FailsOnly.andThen (evaluate_fails e h) fun v => FailsOnly.ofPure _

end

/-- Over the environment that the tree was checked in, no function is gone. -/
theorem residual_of_checked {e : ExpressionError} (h : ev.CheckedError ev.environment e) :
    ev.Residual e := by
  obtain h | ⟨name, hthere, hgone, -⟩ := h
  · exact h
  · rw [hthere] at hgone
    cases hgone

end Evaluator

namespace Sandbox

variable {σ : Type}

/-- What a source that is accepted can still end with. -/
theorem residual_of_examined (host : Host σ) {s : Sandbox} (hc : s.Coherent) {source : Text}
    {tree : Expr} (h : s.examine source = .ok tree) {state : σ} {e : ExpressionError}
    (he : (s.evaluate host source state).1 = .error e) :
    (s.evaluator host source).Residual e := by
  rw [evaluate_of_coherent host hc, h] at he
  obtain ⟨-, -, hv⟩ := examine_eq_ok.1 h
  unfold validate at hv
  obtain ⟨last, hlast, -⟩ := Except.map_eq_ok.1 hv
  exact Evaluator.residual_of_checked (Evaluator.evaluate_fails tree hlast state e he)

end Sandbox

end SceneTemplates
