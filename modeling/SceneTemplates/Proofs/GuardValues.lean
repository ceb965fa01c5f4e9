import SceneTemplates.Proofs.ComparedEvaluations
import SceneTemplates.Proofs.GuardAcceptance

/-!
# Values of guards

Over fixed data, and with host functions that depend on their arguments alone, a source has one
outcome, whatever was evaluated before. A guard that has a value has it from the values that its
tests have alone.
-/
namespace SceneTemplates

namespace Sandbox

variable {σ : Type} {host : Host σ} {env : Environment} {options : SandboxOptions}
  {state : σ} {source test cond : Text} {v : Value}

/-- The outcome of a source over data, in a sandbox that was not called before. -/
def outcome (host : Host σ) (env : Environment) (options : SandboxOptions) (state : σ)
    (source : Text) : Except ExpressionError Value :=
  ((fresh env options).evaluate host source state).1

theorem outcome_eq (host : Host σ) (env : Environment) (options : SandboxOptions) (state : σ)
    (source : Text) :
    outcome host env options state source =
      match (fresh env options).examine source with
      | .error e => .error e
      | .ok tree => (tree.evaluate ((fresh env options).evaluator host source) state).1 :=
  evaluate_of_coherent host (coherent_fresh env options) source state

/-- A source has one outcome over data. -/
theorem outcome_of_reaches (hpure : host.IsPure) {s : Sandbox}
    (h : (fresh env options).Reaches s) (source : Text) (start state : σ) :
    (s.evaluate host source state).1 = outcome host env options start source := by
  rw [outcome_eq, evaluate_of_coherent host (h.coherent (coherent_fresh env options)),
    h.examine source]
  cases (fresh env options).examine source with
  | error e => rfl
  | ok tree =>
    have hev : s.evaluator host source = (fresh env options).evaluator host source := by
      unfold evaluator
      rw [h.environment, h.options]
    have halike : Evaluator.Alike .equality ((fresh env options).evaluator host source)
        ((fresh env options).evaluator host source) :=
      ⟨rfl, rfl, hpure, rfl, fun _ => rfl, fun _ => rfl⟩
    dsimp only
    rw [hev]
    exact Comparison.eq_of_outcomes
      (Evaluator.evaluate_compared halike tree ⟨Int.le_refl _, .inl rfl⟩ state start)

/-- The value of a part of a source is the value it has alone. -/
theorem outcome_of_part (hpure : host.IsPure) {whole part : Text} {tree : Expr} {depth : Nat}
    {start state : σ} (hexamine : (fresh env options).examine part = .ok tree)
    (hvalue : ((((fresh env options).evaluator host whole).evaluate depth tree).run.run state).1 =
      .ok v) :
    outcome host env options start part = .ok v := by
  have halike : Evaluator.Alike .success ((fresh env options).evaluator host whole)
      ((fresh env options).evaluator host part) :=
    ⟨rfl, rfl, hpure, rfl, fun _ => trivial, fun _ => trivial⟩
  have hdeeper : Evaluator.Deeper .success ((fresh env options).evaluator host whole)
      ((fresh env options).evaluator host part) depth 0 := by
    refine ⟨?_, .inr trivial⟩
    show options.maxDepth - depth ≤ options.maxDepth - (0 : Nat)
    omega
  have hcompared := Evaluator.evaluate_compared halike tree hdeeper state start
  rw [hvalue] at hcompared
  rw [outcome_eq, hexamine]
  exact Comparison.ok_of_outcomes hcompared

/-- A computation that ends with a value has one behind a check that is passed. -/
theorem exists_of_checked {α : Type} {c : Prop} [Decidable c] {e : ExpressionError}
    {m : Evaluation σ α} {a : α}
    (h : ((if c then throw e else m : Evaluation σ α).run.run state).1 = .ok a) :
    ∃ after, m.run.run state = (.ok a, after) := by
  by_cases hc : c
  · rw [if_pos hc] at h
    cases h
  · rw [if_neg hc] at h
    exact ⟨_, Prod.ext h rfl⟩

/-- A guard of two tests has the value of the first one if this does not hold, and else that of
the second one. -/
theorem outcome_conjoined (hpure : host.IsPure) (ht : staysInside test = true)
    (hc : staysInside cond = true)
    (h : outcome host env options state (Guard.conjoined test cond) = .ok v) :
    ∃ first, outcome host env options state test = .ok first ∧
      if first.isTruthy then outcome host env options state cond = .ok v else v = first := by
  rw [outcome_eq] at h
  cases hexamine : (fresh env options).examine (Guard.conjoined test cond) with
  | error e =>
    rw [hexamine] at h
    cases h
  | ok tree =>
    rw [hexamine] at h
    obtain ⟨left, right, rfl, hleft, hright⟩ := examine_conjoined hexamine ht hc
    dsimp only at h
    rw [Expr.evaluate, Evaluator.evaluate.eq_def] at h
    obtain ⟨last, hrun⟩ := exists_of_checked h
    obtain ⟨first, after, hfirst, hrest⟩ := Step.run_bind_eq_ok.1 hrun
    refine ⟨first, outcome_of_part hpure hleft (congrArg Prod.fst hfirst), ?_⟩
    dsimp only at hrest
    by_cases htruthy : first.isTruthy = true
    · rw [if_pos htruthy] at hrest ⊢
      exact outcome_of_part hpure hright (congrArg Prod.fst hrest)
    · rw [if_neg htruthy] at hrest ⊢
      cases hrest
      rfl

/-- The guard that turns a test around. -/
theorem outcome_negated (hpure : host.IsPure) (ht : staysInside test = true)
    (h : outcome host env options state (Guard.negated test) = .ok v) :
    ∃ first, outcome host env options state test = .ok first ∧ v = .bool (!first.isTruthy) := by
  rw [outcome_eq] at h
  cases hexamine : (fresh env options).examine (Guard.negated test) with
  | error e =>
    rw [hexamine] at h
    cases h
  | ok tree =>
    rw [hexamine] at h
    obtain ⟨operand, rfl, hoperand⟩ := examine_negated hexamine ht
    dsimp only at h
    rw [Expr.evaluate, Evaluator.evaluate.eq_def] at h
    obtain ⟨last, hrun⟩ := exists_of_checked h
    obtain ⟨first, after, hfirst, hrest⟩ := Step.run_bind_eq_ok.1 hrun
    refine ⟨first, outcome_of_part hpure hoperand (congrArg Prod.fst hfirst), ?_⟩
    cases hrest
    rfl

end Sandbox

end SceneTemplates
