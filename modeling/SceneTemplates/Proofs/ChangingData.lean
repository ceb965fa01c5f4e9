import Mathlib.Data.List.Induction
import SceneTemplates.Proofs.AgreeingEvaluators
import SceneTemplates.Proofs.CheckedEvaluation
import SceneTemplates.Proofs.GuardAcceptance

/-!
# Sandboxes over changing data

The data of a sandbox may change between its calls, and its kept trees stay. What a kept tree is
known for does not depend on the data: it is the tree of its source, within the bounds, and made of
allowed nodes only. What depends on the data, whether a called name refers to a function, is looked
up again at each call of an evaluation. So nothing is ever called but a function of the current
data, and the one error that a change of the data can bring about is that of an unknown function.
-/
namespace SceneTemplates

def SandboxCall.source : SandboxCall → Text
  | .compile source => source
  | .evaluate source => source

/-- A step of a sandbox: a call, or a change of its data. -/
inductive SandboxStep where
  | call (call : SandboxCall)
  | set (key : Text) (value : Value)
  | delete (key : Text)

/-- The source that a step compiles, if it is a call. -/
def SandboxStep.source? : SandboxStep → Option Text
  | .call c => some c.source
  | _ => none

namespace Sandbox

variable {σ : Type} {s compiled : Sandbox} {source : Text} {tree : Expr}

def afterStep (host : Host σ) (s : Sandbox) (state : σ) : SandboxStep → Sandbox × σ
  | .call call => afterCall host s state call
  | .set key value => (s.set key value, state)
  | .delete key => (s.delete key, state)

/-- The sandbox and the state of the host after steps. -/
def afterSteps (host : Host σ) (s : Sandbox) (state : σ) : List SandboxStep → Sandbox × σ
  | [] => (s, state)
  | step :: rest =>
    afterSteps host (afterStep host s state step).1 (afterStep host s state step).2 rest

@[simp]
theorem afterSteps_concat (host : Host σ) (s : Sandbox) (state : σ) (steps : List SandboxStep)
    (step : SandboxStep) :
    afterSteps host s state (steps ++ [step]) =
      afterStep host (afterSteps host s state steps).1 (afterSteps host s state steps).2 step := by
  induction steps generalizing s state with
  | nil => rfl
  | cons first rest ih => exact ih _ _

/-! ## What one step does -/

/-- Compiling gives a kept tree, or examines the source and keeps its tree. -/
theorem compile_eq_ok :
    s.compile source = .ok (tree, compiled) ↔
      (s.validated.get? source = some tree ∧ compiled = s) ∨
      (s.validated.get? source = none ∧ s.examine source = .ok tree ∧
        compiled = { s with validated := s.validated.put source tree }) := by
  unfold compile
  cases hkept : s.validated.get? source with
  | some kept => simp [eq_comm]
  | none =>
    rw [Except.map_eq_ok]
    simp [eq_comm]

/-- After compiling, the tree is kept. -/
theorem get?_of_compile (h : s.compile source = .ok (tree, compiled)) :
    compiled.validated.get? source = some tree := by
  obtain ⟨hkept, rfl⟩ | ⟨-, -, rfl⟩ := compile_eq_ok.1 h
  · exact hkept
  · simp

/-- A call whose source does not compile leaves the sandbox as it is. -/
theorem afterCall_of_error (host : Host σ) {call : SandboxCall} {e : ExpressionError}
    (h : s.compile call.source = .error e) (state : σ) :
    afterCall host s state call = (s, state) := by
  cases call with
  | compile source => simp only [SandboxCall.source] at h; simp only [afterCall, h]
  | evaluate source => simp only [SandboxCall.source] at h; simp only [afterCall, evaluate, h]

/-- A call whose source compiles leaves the sandbox with the tree, also if evaluating it fails. -/
theorem afterCall_of_ok (host : Host σ) {call : SandboxCall}
    (h : s.compile call.source = .ok (tree, compiled)) (state : σ) :
    (afterCall host s state call).1 = compiled := by
  cases call with
  | compile source => simp only [SandboxCall.source] at h; simp only [afterCall, h]
  | evaluate source => simp only [SandboxCall.source] at h; simp only [afterCall, evaluate, h]

/-- What a step does to the kept trees: nothing, or it keeps the tree of a source that was not kept
and that is accepted. -/
theorem validated_afterStep (host : Host σ) (s : Sandbox) (state : σ) (step : SandboxStep) :
    (afterStep host s state step).1.options = s.options ∧
      ((afterStep host s state step).1.validated = s.validated ∧
          (∀ source, step.source? = some source → s.Accepts source →
            s.validated.has source = true) ∨
        ∃ source tree, step.source? = some source ∧ s.validated.get? source = none ∧
          s.examine source = .ok tree ∧
          (afterStep host s state step).1.validated = s.validated.put source tree) := by
  cases step with
  | set key value => exact ⟨rfl, .inl ⟨rfl, fun _ h => by cases h⟩⟩
  | delete key => exact ⟨rfl, .inl ⟨rfl, fun _ h => by cases h⟩⟩
  | call call =>
    cases hc : s.compile call.source with
    | error e =>
      rw [afterStep, afterCall_of_error host hc]
      refine ⟨rfl, .inl ⟨rfl, ?_⟩⟩
      rintro source hsource ⟨compiled, hok⟩
      obtain rfl : call.source = source := by simpa [SandboxStep.source?] using hsource
      rw [hc] at hok
      cases hok
    | ok compiled =>
      rw [afterStep, afterCall_of_ok host hc]
      obtain ⟨hkept, hsame⟩ | ⟨hnew, hexamine, hsame⟩ := compile_eq_ok.1 hc
      · rw [hsame]
        refine ⟨rfl, .inl ⟨rfl, ?_⟩⟩
        intro source hsource _
        obtain rfl : call.source = source := by simpa [SandboxStep.source?] using hsource
        simp [Entries.has, hkept]
      · rw [hsame]
        exact ⟨rfl, .inr ⟨call.source, compiled.1, rfl, hnew, hexamine, rfl⟩⟩

/-- A source that is kept stays kept, with its tree. -/
theorem get?_afterStep (host : Host σ) (state : σ) (step : SandboxStep)
    (h : s.validated.get? source = some tree) :
    (afterStep host s state step).1.validated.get? source = some tree := by
  obtain ⟨-, ⟨hsame, -⟩ | ⟨other, added, -, hnew, -, hput⟩⟩ := validated_afterStep host s state step
  · rw [hsame]
    exact h
  · have hne : source ≠ other := by
      rintro rfl
      rw [h] at hnew
      cases hnew
    simpa [hput, hne] using h

/-- Kept after a step is what was kept before it, and the source of the step if it is accepted. -/
theorem has_afterStep (host : Host σ) (s : Sandbox) (state : σ) (step : SandboxStep)
    (source : Text) :
    (afterStep host s state step).1.validated.has source = true ↔
      s.validated.has source = true ∨ (step.source? = some source ∧ s.Accepts source) := by
  obtain ⟨-, ⟨hsame, hkept⟩ | ⟨other, tree, hsource, hnew, hexamine, hput⟩⟩ :=
    validated_afterStep host s state step
  · rw [hsame]
    exact ⟨.inl, fun h => h.elim id fun h => hkept source h.1 h.2⟩
  · have haccepts : s.Accepts other := ⟨_, compile_eq_ok.2 (.inr ⟨hnew, hexamine, rfl⟩)⟩
    rw [hput, hsource, Option.some.injEq]
    by_cases he : source = other
    · subst he
      simp [Entries.has, haccepts]
    · have hne : ¬ other = source := fun h => he h.symm
      simp [Entries.has, he, hne]

/-! ## What a run does -/

/-- Each kept tree is the tree of its source, which is short enough, and is permitted. -/
def Sound (s : Sandbox) : Prop :=
  ∀ source tree, s.validated.get? source = some tree →
    (source.length : Int) ≤ s.options.maxLength ∧
      parse source s.options.maxDepth = .ok tree ∧ tree.Permitted s.options

theorem sound_fresh (env : Environment) (options : SandboxOptions) : (fresh env options).Sound := by
  intro source tree h
  cases h

theorem Sound.afterStep (host : Host σ) (state : σ) (step : SandboxStep) (h : s.Sound) :
    (afterStep host s state step).1.Sound := by
  intro source tree hget
  obtain ⟨hoptions, ⟨hsame, -⟩ | ⟨other, added, -, -, hexamine, hput⟩⟩ :=
    validated_afterStep host s state step
  · rw [hsame] at hget
    rw [hoptions]
    exact h source tree hget
  · rw [hput] at hget
    rw [hoptions]
    by_cases he : source = other
    · subst he
      obtain rfl : added = tree := by simpa using hget
      obtain ⟨hlength, hparse, hvalidate⟩ := examine_eq_ok.1 hexamine
      exact ⟨by omega, hparse, (validate_eq_ok.1 hvalidate).1⟩
    · exact h source tree (by simpa [he] using hget)

@[simp]
theorem options_afterSteps (host : Host σ) (s : Sandbox) (state : σ) (steps : List SandboxStep) :
    (afterSteps host s state steps).1.options = s.options := by
  induction steps generalizing s state with
  | nil => rfl
  | cons step rest ih => exact (ih _ _).trans (validated_afterStep host s state step).1

theorem Sound.afterSteps (host : Host σ) (state : σ) (steps : List SandboxStep) (h : s.Sound) :
    (afterSteps host s state steps).1.Sound := by
  induction steps generalizing s state with
  | nil => exact h
  | cons step rest ih => exact ih _ (h.afterStep host state step)

theorem get?_afterSteps (host : Host σ) (state : σ) (steps : List SandboxStep)
    (h : s.validated.get? source = some tree) :
    (afterSteps host s state steps).1.validated.get? source = some tree := by
  induction steps generalizing s state with
  | nil => exact h
  | cons step rest ih => exact ih _ (get?_afterStep host state step h)

/-- Kept after a run is what was kept before it, and every source that some step of the run
compiled. -/
theorem has_afterSteps (host : Host σ) (s : Sandbox) (state : σ) (steps : List SandboxStep)
    (source : Text) :
    (afterSteps host s state steps).1.validated.has source = true ↔
      s.validated.has source = true ∨
        ∃ earlier step, earlier ++ [step] <+: steps ∧ step.source? = some source ∧
          (afterSteps host s state earlier).1.Accepts source := by
  induction steps using List.reverseRecOn with
  | nil => simp [Sandbox.afterSteps]
  | append_singleton steps step ih =>
    rw [afterSteps_concat, has_afterStep, ih]
    constructor
    · rintro ((h | ⟨earlier, other, hprefix, hrest⟩) | ⟨hsource, haccepts⟩)
      · exact .inl h
      · exact .inr ⟨earlier, other, hprefix.trans (List.prefix_append steps [step]), hrest⟩
      · exact .inr ⟨steps, step, List.prefix_refl _, hsource, haccepts⟩
    · rintro (h | ⟨earlier, other, hprefix, hsource, haccepts⟩)
      · exact .inl (.inl h)
      · obtain heq | hearlier := List.prefix_concat_iff.1 hprefix
        · obtain ⟨rfl, hlast⟩ := List.append_inj' heq rfl
          rw [List.singleton_inj] at hlast
          subst hlast
          exact .inr ⟨hsource, haccepts⟩
        · exact .inl (.inr ⟨earlier, other, hearlier, hsource, haccepts⟩)

end Sandbox

/-! ## Evaluation of a kept tree -/

/-- An environment in which exactly the given names can be called. -/
def Environment.calling (names : List Text) : Environment :=
  ⟨names.map fun t => (t, .function (.builtin .abs)), []⟩

@[simp] theorem Environment.canCall_calling (names : List Text) (t : Text) :
    (Environment.calling names).canCall t = true ↔ t ∈ names := by
  induction names with
  | nil => simp [calling, canCall, callee?, Entries.get?]
  | cons name rest ih =>
    by_cases hname : name = t
    · simp [calling, canCall, callee?, Entries.get?, hname, Value.isCallable]
    · have hne : ¬ t = name := fun h => hname h.symm
      simp only [calling, canCall, callee?, Entries.get?] at ih
      simp [calling, canCall, callee?, Entries.get?, hname, hne, ih]

namespace Evaluator

variable {σ : Type} {ev : Evaluator σ} {tree : Expr}

/-- What the evaluation of a permitted tree can end with: an error that lies in the values, or the
call of a name that refers to no function. -/
theorem error_of_permitted (ev : Evaluator σ) (h : tree.Permitted ev.options) {state : σ} {e : ExpressionError}
    (he : (tree.evaluate ev state).1 = .error e) :
    ev.Residual e ∨
      ∃ name ∈ tree.called, ev.environment.canCall name = false ∧
        e = .inSource ev.source (.functionGone name) := by
  -- Over an environment made of the called names alone the tree passes validation.
  have hvalid : validate (.calling tree.called) ev.options tree = .ok () :=
    validate_eq_ok.2 ⟨h, fun t ht => (Environment.canCall_calling _ t).2 ht⟩
  unfold validate at hvalid
  obtain ⟨last, hvisit, -⟩ := Except.map_eq_ok.1 hvalid
  obtain hresidual | ⟨name, hcalled, hgone, rfl⟩ := evaluate_fails tree hvisit state e he
  · exact .inl hresidual
  · exact .inr ⟨name, (Environment.canCall_calling _ name).1 hcalled, hgone, rfl⟩

/-- A call of a name that refers to no function ends at once; its arguments are not evaluated. -/
theorem evaluate_gone {depth : Nat} {name : Text} {args : List Expr}
    (hdepth : (depth : Int) ≤ ev.options.maxDepth) (h : ev.environment.canCall name = false) :
    ev.evaluate depth (.call (.name name) args) = ev.fail (.functionGone name) := by
  have hd : ¬ ev.options.maxDepth < depth := by omega
  rw [evaluate.eq_def, if_neg hd]
  dsimp only
  split
  · next f hf => simp [canCall_of_callee? hf] at h
  · rfl

/-- With other functions of the host a tree is evaluated by the same steps, if those behind the
names that it calls are the same. -/
theorem evaluate_of_hosts (ev : Evaluator σ)
    {called : Text → List Value → σ → Except HostFailure Value × σ} (depth : Nat)
    (h : ∀ name ∈ (tree.nodes depth).filterMap fun node => node.2.calledName?,
      ∀ id hostName, ev.environment.callee? name = some (.function (.host id hostName)) →
        called hostName = ev.host.call hostName) :
    ({ ev with host := { ev.host with call := called } } : Evaluator σ).evaluate depth tree =
      ev.evaluate depth tree := by
  refine evaluate_congr tree depth
    { source := rfl
      nullSafeMember := rfl
      depth := fun _ _ => Iff.rfl
      lookup := fun _ _ _ _ => rfl
      callee := fun _ _ _ _ => rfl
      call := ?_ }
  intro node hnode t ht f hf
  funext args
  cases f with
  | builtin g => rfl
  | host id hostName =>
    have hcalled : t ∈ (tree.nodes depth).filterMap fun node => node.2.calledName? :=
      List.mem_filterMap.2 ⟨node, hnode, ht⟩
    simp only [call, h t hcalled id hostName hf]
    rfl

end Evaluator

namespace Sandbox

variable {σ : Type} {s : Sandbox} {source : Text} {tree : Expr}

/-- A kept source is evaluated without being examined. -/
theorem evaluate_of_kept (h : s.validated.get? source = some tree) (host : Host σ) (state : σ) :
    s.evaluate host source state =
      ((tree.evaluate (s.evaluator host source) state).1, s,
        (tree.evaluate (s.evaluator host source) state).2) := by
  simp only [evaluate, compile_cached h]

/-- A sandbox keeps a source with its tree: for good, within the bounds, and of allowed nodes only.
With the data that there are, the evaluation of the source fails at run time only, or at the call of
a name that does not refer to a function. Such a call ends before its arguments are evaluated, and
no host function is called but those that the names called in the source refer to. -/
structure Keeps (host : Host σ) (s : Sandbox) (state : σ) (source : Text) (tree : Expr) : Prop where
  later : ∀ steps, (afterSteps host s state steps).1.validated.get? source = some tree
  length : (source.length : Int) ≤ s.options.maxLength
  parsed : parse source s.options.maxDepth = .ok tree
  permitted : tree.Permitted s.options
  errors : ∀ e, (s.evaluate host source state).1 = .error e →
    (s.evaluator host source).Residual e ∨
      ∃ name ∈ tree.called, s.environment.canCall name = false ∧
        e = .inSource source (.functionGone name)
  gone : ∀ depth name args, (depth, .call (.name name) args) ∈ tree.nodes 0 →
    s.environment.canCall name = false →
    (s.evaluator host source).evaluate depth (.call (.name name) args) =
      (s.evaluator host source).fail (.functionGone name)
  functions : ∀ called : Text → List Value → σ → Except HostFailure Value × σ,
    (∀ name ∈ tree.called, ∀ id hostName,
      s.environment.callee? name = some (.function (.host id hostName)) →
        called hostName = host.call hostName) →
    s.evaluate { host with call := called } source state = s.evaluate host source state

/-- What a sandbox keeps after steps from a first one: exactly the sources that some call compiled.
A call that does not compile leaves the sandbox as it is, and one that compiles keeps the tree
whatever the evaluation comes to. -/
structure KeepsCompiled (host : Host σ) (first : Sandbox) (start : σ) (steps : List SandboxStep)
    (now : Sandbox) (state : σ) : Prop where
  options : now.options = first.options
  compiled_iff : ∀ source, now.validated.has source = true ↔
    ∃ earlier step, earlier ++ [step] <+: steps ∧ step.source? = some source ∧
      (afterSteps host first start earlier).1.Accepts source
  failed : ∀ call e, now.compile (SandboxCall.source call) = .error e →
    afterCall host now state call = (now, state)
  compiled : ∀ call tree after, now.compile (SandboxCall.source call) = .ok (tree, after) →
    after.validated.get? call.source = some tree ∧ (afterCall host now state call).1 = after
  keeps : ∀ source tree, now.validated.get? source = some tree → Keeps host now state source tree

theorem Sound.keeps (host : Host σ) (hs : s.Sound) (h : s.validated.get? source = some tree)
    (state : σ) : Keeps host s state source tree := by
  obtain ⟨hlength, hparse, hpermitted⟩ := hs source tree h
  have hrun := evaluate_of_kept h host state
  exact
    { later := fun steps => get?_afterSteps host state steps h
      length := hlength
      parsed := hparse
      permitted := hpermitted
      errors := fun e he => (s.evaluator host source).error_of_permitted hpermitted (hrun ▸ he)
      gone := fun depth name args hnode hgone =>
        Evaluator.evaluate_gone (hpermitted.depth _ hnode) hgone
      functions := fun called hsame => by
        have hsteps := (s.evaluator host source).evaluate_of_hosts 0 hsame
        rw [hrun, evaluate_of_kept h _ state, Expr.evaluate, Expr.evaluate, ← hsteps]
        rfl }

/-- What holds of every sandbox in the course of calls and changes of its data. Kept are exactly
the sources that some call compiled, for good and with their trees, and with the data that there
are now each of them can only fail as a kept source can. -/
theorem kept_of_steps (host : Host σ) (env : Environment) (options : SandboxOptions) (start : σ)
    (steps : List SandboxStep) :
    let now := afterSteps host (fresh env options) start steps
    KeepsCompiled host (fresh env options) start steps now.1 now.2 := by
  intro now
  have hsound : now.1.Sound := (sound_fresh env options).afterSteps host start steps
  have hkept := has_afterSteps host (fresh env options) start steps
  have hnothing : ∀ source, (fresh env options).validated.has source = false := fun _ => rfl
  exact
    { options := options_afterSteps host (fresh env options) start steps
      compiled_iff := fun source => by simpa [hnothing] using hkept source
      failed := fun call e h => afterCall_of_error host h now.2
      compiled := fun call tree after h => ⟨get?_of_compile h, afterCall_of_ok host h now.2⟩
      keeps := fun source tree h => hsound.keeps host h now.2 }

/-- A source whose function was deleted after it was evaluated, with a call between that does not
compile. -/
theorem kept_of_steps_deleted :
    let host : Host Nat := ⟨fun _ _ n => (.ok (.int n), n + 1)⟩
    let env : Environment := ⟨[("f", .function (.host 0 "count"))], []⟩
    let steps : List SandboxStep := [.call (.evaluate "f(f)"), .call (.compile "f("), .delete "f"]
    let now := (afterSteps host (fresh env ⟨10, 5, 5, true⟩) 7 steps).1
    let state := (afterSteps host (fresh env ⟨10, 5, 5, true⟩) 7 steps).2
    let tree : Expr := .call (.name "f") [.name "f"]
    let e : ExpressionError := .inSource "f(f)" (.functionGone "f")
    (now.evaluate host "f(f)" state).1 = .error e ∧ state = 8 ∧
      Keeps host now state "f(f)" tree := by
  intro host env steps now state tree e
  let compiled : Sandbox := ⟨env, ⟨10, 5, 5, true⟩, [("f(f)", tree)]⟩
  have hfirst : afterStep host (fresh env ⟨10, 5, 5, true⟩) 7 (.call (.evaluate "f(f)")) =
    (compiled, 8) := rfl
  have hsecond : afterStep host compiled 8 (.call (.compile "f(")) = (compiled, 8) := rfl
  have hrun : afterSteps host (fresh env ⟨10, 5, 5, true⟩) 7 steps = (compiled.delete "f", 8) := by
    simp only [steps, afterSteps, hfirst, hsecond]
    rfl
  have herror : (now.evaluate host "f(f)" state).1 = .error e := by
    simp only [now, state, hrun]
    rfl
  have hget : now.validated.get? "f(f)" = some tree := by
    simp only [now, hrun]
    rfl
  have hkept := (kept_of_steps host env ⟨10, 5, 5, true⟩ 7 steps).keeps "f(f)" tree hget
  exact ⟨herror, by simp only [state, hrun], hkept⟩

end Sandbox

end SceneTemplates
