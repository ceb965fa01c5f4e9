import SceneTemplates.Proofs.RelatedEvaluations

/-!
# Comparing evaluations

Two evaluations of one tree over the same environment go the same way, if the functions of the host
depend on their arguments alone: from whatever state of the host, and also where the second one has
more depth left than the first. What is made of the errors is up to the comparison.
-/
namespace SceneTemplates

/-- The functions of a host have no state that shows in their outcomes. -/
def Host.IsPure {σ : Type} (host : Host σ) : Prop :=
  ∀ name args state state', (host.call name args state).1 = (host.call name args state').1

/-- How two outcomes are compared: after an error that is excused anything may stand on the other
side, and any other error is matched by one there. -/
structure Comparison where
  excused : ExpressionError → Prop
  matched : ExpressionError → ExpressionError → Prop

namespace Comparison

/-- Outcomes that compare. -/
inductive Outcomes (p : Comparison) {α : Type} :
    Except ExpressionError α → Except ExpressionError α → Prop where
  | excused {e : ExpressionError} {other : Except ExpressionError α} (h : p.excused e) :
      Outcomes p (.error e) other
  | failed {e e' : ExpressionError} (h : p.matched e e') : Outcomes p (.error e) (.error e')
  | same (a : α) : Outcomes p (.ok a) (.ok a)

/-- No error is excused, and each is matched by itself. -/
def equality : Comparison := ⟨fun _ => False, Eq⟩

/-- Every error is excused. -/
def success : Comparison := ⟨fun _ => True, fun _ _ => True⟩

variable {α : Type} {first second : Except ExpressionError α}

theorem eq_of_outcomes (h : equality.Outcomes first second) : first = second := by
  cases h with
  | excused h => cases h
  | failed h => rw [show _ = _ from h]
  | same a => rfl

theorem ok_of_outcomes {p : Comparison} {a : α} (h : p.Outcomes (.ok a) second) :
    second = .ok a := by
  cases h
  rfl

end Comparison

namespace Evaluation

variable {σ α β : Type} {p : Comparison}

/-- Two computations that end alike, whatever the states of the host. -/
def Compared (p : Comparison) (m m' : Evaluation σ α) : Prop :=
  ∀ state state', p.Outcomes (m.run.run state).1 (m'.run.run state').1

namespace Compared

theorem ofPure (a : α) : Compared p (pure a : Evaluation σ α) (pure a) :=
  fun _ _ => .same a

theorem ofThrow {e e' : ExpressionError} (h : p.matched e e') :
    Compared p (throw e : Evaluation σ α) (throw e') :=
  fun _ _ => .failed h

theorem andThen {m m' : Evaluation σ α} {f f' : α → Evaluation σ β} (hm : Compared p m m')
    (hf : ∀ a, Compared p (f a) (f' a)) : Compared p (m >>= f) (m' >>= f') := by
  intro state state'
  have h := hm state state'
  rw [Step.run_bind, Step.run_bind]
  generalize m.run.run state = ran, m'.run.run state' = ran' at h ⊢
  obtain ⟨outcome, after⟩ := ran
  obtain ⟨outcome', after'⟩ := ran'
  cases h with
  | excused h => exact .excused h
  | failed h => exact .failed h
  | same a => exact hf a after after'

theorem ite {c : Prop} [Decidable c] {m m' n n' : Evaluation σ α} (hm : Compared p m m')
    (hn : Compared p n n') : Compared p (if c then m else n) (if c then m' else n') := by
  split
  · exact hm
  · exact hn

end Compared

end Evaluation

open Evaluation (Compared)

namespace Evaluator

variable {σ : Type} {p : Comparison} {ev ev' : Evaluator σ}

/-- Two evaluators that differ in what does not matter to a comparison: the text of the expression
in messages, and the depth. -/
structure Alike (p : Comparison) (ev ev' : Evaluator σ) : Prop where
  environment : ev'.environment = ev.environment
  host : ev'.host = ev.host
  isPure : ev.host.IsPure
  nullSafeMember : ev'.options.nullSafeMember = ev.options.nullSafeMember
  failed : ∀ cause, p.matched (.inSource ev.source cause) (.inSource ev'.source cause)
  raised : ∀ e, p.matched e e

/-- The second evaluator has at least the depth left that the first one has, and no other one if
running out of it is not excused. -/
structure Deeper (p : Comparison) (ev ev' : Evaluator σ) (depth depth' : Nat) : Prop where
  le : ev.options.maxDepth - depth ≤ ev'.options.maxDepth - depth'
  excused : ev.options.maxDepth - depth = ev'.options.maxDepth - depth' ∨
    p.excused (.inSource ev.source .tooDeep)

theorem Deeper.below {depth depth' : Nat} (h : Deeper p ev ev' depth depth') :
    Deeper p ev ev' (depth + 1) (depth' + 1) := by
  have hle := h.le
  refine ⟨by omega, ?_⟩
  obtain heq | hexcused := h.excused
  · exact .inl (by omega)
  · exact .inr hexcused

theorem fail_compared {α : Type} (h : Alike p ev ev') (cause : ExpressionCause) :
    Compared p (ev.fail cause : Evaluation σ α) (ev'.fail cause) :=
  Compared.ofThrow (h.failed cause)

/-- The check of the depth, in front of computations that compare if it is passed. -/
theorem depth_compared {α : Type} (h : Alike p ev ev') {depth depth' : Nat}
    (hd : Deeper p ev ev' depth depth') {m m' : Evaluation σ α} (hm : Compared p m m') :
    Compared p (if ev.options.maxDepth < depth then ev.fail .tooDeep else m)
      (if ev'.options.maxDepth < depth' then ev'.fail .tooDeep else m') := by
  have hle := hd.le
  by_cases hdepth : ev.options.maxDepth < depth
  · rw [if_pos hdepth]
    obtain heq | hexcused := hd.excused
    · have hdepth' : ev'.options.maxDepth < depth' := by omega
      rw [if_pos hdepth']
      exact fail_compared h .tooDeep
    · exact fun _ _ => .excused hexcused
  · have hdepth' : ¬ ev'.options.maxDepth < depth' := by omega
    rw [if_neg hdepth, if_neg hdepth']
    exact hm

theorem member_compared (h : Alike p ev ev') (object : Value) (property : Text) :
    Compared p (ev.member object property) (ev'.member object property) := by
  unfold member
  rw [h.nullSafeMember]
  refine Compared.ite (fail_compared h _) (Compared.ite ?_ (Compared.ofPure _))
  exact Compared.ite (Compared.ofPure _) (fail_compared h _)

theorem call_compared (h : Alike p ev ev') (name : Text) (f : Function) (args : List Value) :
    Compared p (ev.call name f args) (ev'.call name f args) := by
  cases f with
  | builtin g =>
    unfold call
    rw [h.host]
    dsimp only
    split
    · exact Compared.ofPure _
    · exact fail_compared h _
    · exact fail_compared h _
  | host id hostName =>
    unfold call
    rw [h.host]
    refine Compared.andThen ?_ fun outcome => ?_
    · intro state state'
      have hcall : (ev.host.call hostName args state).1 = (ev.host.call hostName args state').1 :=
        h.isPure hostName args state state'
      show p.Outcomes (.ok (ev.host.call hostName args state).1)
        (.ok (ev.host.call hostName args state').1)
      rw [hcall]
      exact .same _
    · split
      · exact Compared.ofPure _
      · exact fail_compared h _
      · exact Compared.ofThrow (h.raised _)

/-- Two evaluators that are alike make comparisons of every step. -/
theorem compared (h : Alike p ev ev') :
    Respected ev ev' (Deeper p ev ev') fun _ m m' => Compared p m m' where
  environment := h.environment
  below := Deeper.below
  checked hd hm := depth_compared h hd hm
  ofPure := Compared.ofPure
  andThen := Compared.andThen
  fail cause _ := fail_compared h cause
  member := member_compared h
  call := call_compared h

/-- A tree is evaluated alike with the depth that is left, or more. -/
theorem evaluate_compared (h : Alike p ev ev') (e : Expr) {depth depth' : Nat}
    (hd : Deeper p ev ev' depth depth') :
    Compared p (ev.evaluate depth e) (ev'.evaluate depth' e) :=
  evaluate_related (compared h) e hd

end Evaluator

end SceneTemplates
