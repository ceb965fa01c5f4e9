import SceneTemplates.Expression.Sandbox
import SceneTemplates.Proofs.Steps

/-!
# Sandboxes over fixed data

While the data stay as they are, a kept tree is the one that examining its source again would give.
Every call keeps it so, whether it succeeds or not.
-/
namespace SceneTemplates

/-- A call of a sandbox that leaves its data as they are. -/
inductive SandboxCall where
  | compile (source : Text)
  | evaluate (source : Text)

namespace Sandbox

variable {σ : Type} {s after : Sandbox} {source : Text} {tree : Expr}

/-- A sandbox that has not been called. -/
def fresh (env : Environment) (options : SandboxOptions) : Sandbox := ⟨env, options, []⟩

def afterCall (host : Host σ) (s : Sandbox) (state : σ) : SandboxCall → Sandbox × σ
  | .compile source =>
    match s.compile source with
    | .ok (_, s) => (s, state)
    | .error _ => (s, state)
  | .evaluate source => (s.evaluate host source state).2

/-- The sandbox and the state of the host after calls. -/
def afterCalls (host : Host σ) (s : Sandbox) (state : σ) : List SandboxCall → Sandbox × σ
  | [] => (s, state)
  | call :: rest =>
    afterCalls host (afterCall host s state call).1 (afterCall host s state call).2 rest

/-- The tree of a source, or the cause why it is refused: the length is checked first, then the
tokens, the syntax, and the rules of validation. -/
def examined (env : Environment) (options : SandboxOptions) (source : Text) :
    Except ExpressionCause Expr := do
  if options.maxLength < source.length then throw (.tooLong options.maxLength)
  let tokens ← tokenize source
  let tree ← Parser.whole options.maxDepth tokens
  let _ ← validate env options tree
  return tree

/-- Examining a source places the cause of a refusal in the source. -/
theorem examine_eq (s : Sandbox) (source : Text) :
    s.examine source =
      (examined s.environment s.options source).mapError (.inSource source) := by
  unfold examine examined parse
  by_cases hlen : s.options.maxLength < source.length
  · rw [if_pos hlen, if_pos hlen]
    rfl
  rw [if_neg hlen, if_neg hlen]
  cases tokenize source with
  | error cause => rfl
  | ok tokens =>
    cases hw : Parser.whole s.options.maxDepth tokens with
    | error cause => simp only [bind, Except.bind, hw, Except.mapError]
    | ok tree =>
      cases hv : validate s.environment s.options tree with
      | error cause => simp only [bind, Except.bind, hw, hv]; rfl
      | ok _ => simp only [bind, Except.bind, pure, Except.pure, hw, hv, Except.mapError]

/-- A source is accepted within the length, if it can be parsed and its tree passes. -/
theorem examine_eq_ok :
    s.examine source = .ok tree ↔
      ¬ s.options.maxLength < source.length ∧ parse source s.options.maxDepth = .ok tree ∧
        validate s.environment s.options tree = .ok () := by
  unfold examine
  by_cases hlen : s.options.maxLength < source.length
  · rw [if_pos hlen]
    simp [hlen, bind, Except.bind, throw, throwThe, MonadExceptOf.throw]
  · rw [if_neg hlen]
    simp only [hlen, not_false_eq_true, true_and]
    rw [Except.bind_eq_ok]
    constructor
    · rintro ⟨parsed, hparse, h⟩
      cases hv : validate s.environment s.options parsed with
      | error cause => simp [hv, throw, throwThe, MonadExceptOf.throw] at h
      | ok _ =>
        obtain rfl : parsed = tree := by simpa [hv, pure, Except.pure] using h
        exact ⟨hparse, hv⟩
    · rintro ⟨hparse, hv⟩
      exact ⟨tree, hparse, by rw [hv]; rfl⟩

theorem examined_eq_ok {env : Environment} {options : SandboxOptions} :
    examined env options source = .ok tree ↔
      ¬ options.maxLength < source.length ∧ parse source options.maxDepth = .ok tree ∧
        validate env options tree = .ok () := by
  have hexamine : (fresh env options).examine source = .ok tree ↔
      examined env options source = .ok tree := by
    rw [examine_eq, Except.mapError_eq_ok]
    rfl
  exact hexamine.symm.trans examine_eq_ok

/-- What is kept is what examining gives. -/
def Coherent (s : Sandbox) : Prop :=
  ∀ source tree, s.validated.get? source = some tree → s.examine source = .ok tree

theorem coherent_fresh (env : Environment) (options : SandboxOptions) :
    (fresh env options).Coherent := by
  intro source tree h
  cases h

/-- Another sandbox that was called over the same data with the same options. -/
structure Reaches (s after : Sandbox) : Prop where
  environment : after.environment = s.environment
  options : after.options = s.options
  coherent : s.Coherent → after.Coherent

theorem Reaches.refl (s : Sandbox) : s.Reaches s := ⟨rfl, rfl, id⟩

theorem Reaches.trans {first second third : Sandbox} (h : first.Reaches second)
    (h' : second.Reaches third) : first.Reaches third :=
  ⟨h'.environment.trans h.environment, h'.options.trans h.options,
    fun hc => h'.coherent (h.coherent hc)⟩

theorem Reaches.examine (h : s.Reaches after) (source : Text) :
    after.examine source = s.examine source := by
  unfold Sandbox.examine
  rw [h.environment, h.options]

/-- Keeping the tree of an examined source. -/
theorem reaches_keep (h : s.examine source = .ok tree) :
    s.Reaches { s with validated := s.validated.put source tree } := by
  refine ⟨rfl, rfl, ?_⟩
  intro hc other kept hk
  by_cases he : other = source
  · subst he
    obtain rfl : tree = kept := by simpa using hk
    exact h
  · exact hc other kept (by simpa [he] using hk)

/-- Whether a source is kept or not, compiling it gives what examining it gives. -/
theorem compile_of_coherent (hc : s.Coherent) (source : Text) :
    (s.compile source).map (·.1) = s.examine source := by
  unfold compile
  cases hk : s.validated.get? source with
  | some kept => exact (hc source kept hk).symm
  | none => cases s.examine source <;> rfl

theorem reaches_compile (h : s.compile source = .ok (tree, after)) : s.Reaches after := by
  unfold compile at h
  cases hk : s.validated.get? source with
  | some kept =>
    rw [hk] at h
    cases h
    exact Reaches.refl s
  | none =>
    rw [hk] at h
    obtain ⟨t, ht, h⟩ := Except.map_eq_ok.1 h
    cases h
    exact reaches_keep ht

theorem reaches_evaluate (host : Host σ) (s : Sandbox) (source : Text) (state : σ) :
    s.Reaches (s.evaluate host source state).2.1 := by
  unfold evaluate
  cases hc : s.compile source with
  | error e => exact Reaches.refl s
  | ok compiled => exact reaches_compile hc

theorem reaches_afterCall (host : Host σ) (s : Sandbox) (state : σ) (call : SandboxCall) :
    s.Reaches (afterCall host s state call).1 := by
  cases call with
  | compile source =>
    rw [afterCall]
    cases hc : s.compile source with
    | error e => exact Reaches.refl s
    | ok compiled => exact reaches_compile hc
  | evaluate source => exact reaches_evaluate host s source state

/-- After any calls a sandbox is one over the same data, with the trees that belong there. -/
theorem reaches_afterCalls (host : Host σ) (calls : List SandboxCall) (s : Sandbox) (state : σ) :
    s.Reaches (afterCalls host s state calls).1 := by
  induction calls generalizing s state with
  | nil => exact Reaches.refl s
  | cons call rest ih => exact (reaches_afterCall host s state call).trans (ih _ _)

/-- The outcome of an evaluation does not depend on what is kept. -/
theorem evaluate_of_coherent (host : Host σ) (hc : s.Coherent) (source : Text) (state : σ) :
    (s.evaluate host source state).1 =
      match s.examine source with
      | .error e => .error e
      | .ok tree => (tree.evaluate (s.evaluator host source) state).1 := by
  rw [← compile_of_coherent hc source]
  unfold evaluate
  cases h : s.compile source with
  | error e => rfl
  | ok compiled =>
    have hr := reaches_compile h
    have hev : compiled.2.evaluator host source = s.evaluator host source := by
      unfold evaluator
      rw [hr.environment, hr.options]
    show (compiled.1.evaluate (compiled.2.evaluator host source) state).1 = _
    rw [hev]
    rfl

/-- What an evaluation comes to over the same data: the cause why the source is refused, or the run
of its tree. What is kept does not show. -/
theorem run_of_reaches {env : Environment} {options : SandboxOptions}
    (h : (fresh env options).Reaches s) (host : Host σ) (source : Text) (state : σ) :
    ((s.evaluate host source state).1, (s.evaluate host source state).2.2) =
      match examined env options source with
      | .error cause => (.error (.inSource source cause), state)
      | .ok tree => tree.evaluate ⟨env, host, options, source⟩ state := by
  have hcompile := compile_of_coherent (h.coherent (coherent_fresh env options)) source
  rw [h.examine, examine_eq] at hcompile
  change (s.compile source).map (·.1) = (examined env options source).mapError _ at hcompile
  unfold evaluate
  cases hc : s.compile source with
  | error e =>
    rw [hc] at hcompile
    obtain ⟨cause, hcause, rfl⟩ := Except.mapError_eq_error.1 hcompile.symm
    rw [hcause]
  | ok compiled =>
    rw [hc] at hcompile
    rw [Except.mapError_eq_ok.1 hcompile.symm]
    have hafter := h.trans (reaches_compile hc)
    have hev : compiled.2.evaluator host source = ⟨env, host, options, source⟩ := by
      unfold evaluator
      rw [hafter.environment, hafter.options]
      rfl
    show compiled.1.evaluate (compiled.2.evaluator host source) state = _
    rw [hev]

end Sandbox

end SceneTemplates
