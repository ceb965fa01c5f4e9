import SceneTemplates.Proofs.GuardValues
import SceneTemplates.Proofs.ResolvedTrees

/-!
# Repeated calls over fixed data

A sandbox keeps the trees of sources, and a resolver keeps a sandbox. As long as the data stay as
they are and host functions depend on their arguments alone, nothing of that shows: each call of a
run, whatever went before and however that ended, is answered as by a sandbox or a resolver that
was never called.
-/
namespace SceneTemplates

/-- What a call answers: the tree of a source, or a value. -/
inductive Answer where
  | tree (e : Expr)
  | value (v : Value)

/-- A call of a resolver that leaves its data as they are, or one of its sandbox. -/
inductive ResolverCall where
  | sandbox (call : SandboxCall)
  | resolve (t : Tree)

namespace Sandbox

variable {σ : Type} {host : Host σ} {env : Environment} {options : SandboxOptions}

/-- The answer to a call. -/
def answer (host : Host σ) (s : Sandbox) (state : σ) : SandboxCall → Except ExpressionError Answer
  | .compile source => (s.compile source).map fun compiled => .tree compiled.1
  | .evaluate source => (s.evaluate host source state).1.map .value

/-- The answers to calls of one sandbox, one after the other. -/
def answers (host : Host σ) (s : Sandbox) (state : σ) :
    List SandboxCall → List (Except ExpressionError Answer)
  | [] => []
  | call :: rest =>
    s.answer host state call ::
      answers host (afterCall host s state call).1 (afterCall host s state call).2 rest

/-- A sandbox answers a call as a fresh one does, whatever the state of the host. -/
theorem answer_of_reaches (hpure : host.IsPure) {s : Sandbox} (h : (fresh env options).Reaches s)
    (call : SandboxCall) (state other : σ) :
    s.answer host state call = (fresh env options).answer host other call := by
  cases call with
  | compile source =>
    have hkept := compile_of_coherent (h.coherent (coherent_fresh env options)) source
    have hfresh := compile_of_coherent (coherent_fresh env options) source
    have hsame : (s.compile source).map (·.1) = ((fresh env options).compile source).map (·.1) := by
      rw [hkept, hfresh, h.examine source]
    have hanswer : ∀ t : Sandbox, t.answer host state (.compile source) =
        ((t.compile source).map (·.1)).map Answer.tree := by
      intro t
      rw [answer]
      cases t.compile source <;> rfl
    have hfreshAnswer : (fresh env options).answer host other (.compile source) =
        (fresh env options).answer host state (.compile source) := rfl
    rw [hfreshAnswer, hanswer, hanswer, hsame]
  | evaluate source =>
    have hkept := outcome_of_reaches hpure h source other state
    rw [answer, answer, hkept, outcome]

theorem answers_eq_map (hpure : host.IsPure) (calls : List SandboxCall) {s : Sandbox}
    (h : (fresh env options).Reaches s) (state other : σ) :
    s.answers host state calls = calls.map ((fresh env options).answer host other) := by
  induction calls generalizing s state with
  | nil => rfl
  | cons call rest ih =>
    have hfirst := answer_of_reaches hpure h call state other
    have hafter := h.trans (reaches_afterCall host s state call)
    rw [answers, List.map_cons, hfirst, ih hafter]

end Sandbox

namespace Resolver

variable {σ : Type} {host : Host σ} {env : Environment} {options : SandboxOptions}

/-- A resolver that has not been called. -/
def fresh (env : Environment) (options : SandboxOptions) (state : σ) : Resolver σ :=
  ⟨Sandbox.fresh env options, state, []⟩

theorem over_fresh (env : Environment) (options : SandboxOptions) (state : σ) :
    (fresh env options state).Over env options := Sandbox.Reaches.refl _

def answer (host : Host σ) (r : Resolver σ) : ResolverCall → Except ExpressionError Answer
  | .sandbox call => r.sandbox.answer host r.state call
  | .resolve t => (r.resolve host t).1.map .value

def afterCall (host : Host σ) (r : Resolver σ) : ResolverCall → Resolver σ
  | .sandbox call =>
    let after := Sandbox.afterCall host r.sandbox r.state call
    { r with sandbox := after.1, state := after.2 }
  | .resolve t => (r.resolve host t).2

/-- The answers to calls of one resolver, one after the other. -/
def answers (host : Host σ) (r : Resolver σ) :
    List ResolverCall → List (Except ExpressionError Answer)
  | [] => []
  | call :: rest => r.answer host call :: answers host (r.afterCall host call) rest

/-- A resolver answers a call as a fresh one does, whatever the state of the host. -/
theorem answer_of_over (hpure : host.IsPure) {r : Resolver σ} (h : r.Over env options)
    (call : ResolverCall) (other : σ) :
    r.answer host call = (fresh env options other).answer host call := by
  cases call with
  | sandbox call => exact Sandbox.answer_of_reaches hpure h call r.state other
  | resolve t =>
    have hgives : Resolution.Gives env options (Resolution.tree host t) _ :=
      Resolution.tree_gives hpure other t
    have hkept : (r.resolve host t).1 = _ := hgives r h
    have hfresh : ((fresh env options other).resolve host t).1 = _ :=
      hgives _ (over_fresh env options other)
    rw [answer, answer, hkept, hfresh]

theorem over_afterCall (host : Host σ) {r : Resolver σ} (h : r.Over env options) (call : ResolverCall) :
    (r.afterCall host call).Over env options := by
  cases call with
  | sandbox call => exact h.trans (Sandbox.reaches_afterCall host r.sandbox r.state call)
  | resolve t => exact h.trans (Resolution.tree_stays host t r)

theorem answers_eq_map (hpure : host.IsPure) (calls : List ResolverCall) {r : Resolver σ}
    (h : r.Over env options) (other : σ) :
    r.answers host calls = calls.map ((fresh env options other).answer host) := by
  induction calls generalizing r with
  | nil => rfl
  | cons call rest ih =>
    have hfirst := answer_of_over hpure h call other
    have hafter := over_afterCall host h call
    rw [answers, List.map_cons, hfirst, ih hafter]

end Resolver

/-- What is kept of earlier calls does not show. Over fixed data and with host functions that
depend on their arguments alone, calls of one sandbox are answered as the same calls each on a
fresh sandbox, and calls of one resolver and of its sandbox as the same calls each on a fresh
resolver. -/
theorem answers_of_fresh {σ : Type} {host : Host σ} (hpure : host.IsPure) (env : Environment)
    (options : SandboxOptions) (start other : σ) :
    (∀ calls : List SandboxCall,
      (Sandbox.fresh env options).answers host start calls =
        calls.map ((Sandbox.fresh env options).answer host other)) ∧
    (∀ calls : List ResolverCall,
      (Resolver.fresh env options start).answers host calls =
        calls.map ((Resolver.fresh env options other).answer host)) := by
  constructor
  · intro calls
    exact Sandbox.answers_eq_map hpure calls (Sandbox.Reaches.refl _) start other
  · intro calls
    exact Resolver.answers_eq_map hpure calls (Resolver.over_fresh env options start) other

/-- Calls that succeed, fail in the syntax and fail at a member of null, some of them twice, with a
host that counts its calls and returns the first argument. -/
theorem answers_of_fresh_counting :
    let host : Host Nat := ⟨fun _ args n => (.ok (args.headD .null), n + 1)⟩
    let env : Environment := ⟨[("x", .null), ("f", .function (.host 0 "first"))], []⟩
    let options : SandboxOptions := ⟨10, 5, 5, false⟩
    let calls : List SandboxCall :=
      [.evaluate "f(x).y", .compile "f(", .evaluate "f(x)", .compile "f(x).y", .evaluate "f(x).y"]
    let resolverCalls : List ResolverCall :=
      [.resolve (.sequence [.dynamic "f(x)", .dynamic "x.y"]), .sandbox (.compile "x.y"),
        .resolve (.dynamic "x.y"), .sandbox (.evaluate "f(f)"), .resolve (.dynamic "f(x)")]
    host.IsPure ∧
      (Sandbox.fresh env options).answers host 0 calls =
        calls.map ((Sandbox.fresh env options).answer host 7) ∧
      (Resolver.fresh env options 0).answers host resolverCalls =
        resolverCalls.map ((Resolver.fresh env options 7).answer host) := by
  intro host env options calls resolverCalls
  have hpure : host.IsPure := fun _ _ _ _ => rfl
  have hall := answers_of_fresh hpure env options 0 7
  exact ⟨hpure, hall.1 calls, hall.2 resolverCalls⟩

end SceneTemplates
