import SceneTemplates.Proofs.AgreeingEvaluators
import SceneTemplates.Proofs.FixedData
import SceneTemplates.Proofs.LooserBounds
import SceneTemplates.Proofs.VisitedNodes

/-!
# The names that an expression mentions

A name reaches the data in three ways: where it stands for a value, where validation asks whether it
can be called, and where it is called. In each of them nothing but the entries under that name is
looked at. An expression therefore depends only on the names that it mentions, in what it comes to
and in the errors that it ends with.
-/
namespace SceneTemplates

namespace Expr

/-- The name that a node mentions: the name that it is, or the name that it calls. -/
def mentionedName? : Expr → Option Text
  | .name t => some t
  | e => e.calledName?

/-- The names that a tree mentions, in order. A name behind a point and the plain key of an entry
are none of its nodes. -/
def mentioned (e : Expr) : List Text := (e.nodes 0).filterMap fun node => node.2.mentionedName?

variable {env env' : Environment} {e : Expr} {t : Text}

theorem mem_mentioned {node : Nat × Expr} (hnode : node ∈ e.nodes 0)
    (ht : node.2.mentionedName? = some t) : t ∈ e.mentioned :=
  List.mem_filterMap.2 ⟨node, hnode, ht⟩

theorem mentionedName?_of_called (h : e.calledName? = some t) : e.mentionedName? = some t := by
  cases e with
  | name _ => cases h
  | _ => exact h

end Expr

namespace Environment

variable {env env' : Environment} {t : Text}

/-- Two environments that have the same under a name. -/
structure SameAt (env env' : Environment) (t : Text) : Prop where
  data : env'.data.get? t = env.data.get? t
  globals : env'.globals.get? t = env.globals.get? t

theorem SameAt.lookup (h : env.SameAt env' t) : env'.lookup t = env.lookup t := by
  unfold Environment.lookup
  rw [h.data, h.globals]

theorem SameAt.callee? (h : env.SameAt env' t) : env'.callee? t = env.callee? t := by
  unfold Environment.callee?
  rw [h.data, h.globals]

theorem SameAt.canCall (h : env.SameAt env' t) : env'.canCall t = env.canCall t := by
  unfold Environment.canCall
  rw [h.callee?]

end Environment

namespace Expr

variable {env env' : Environment} {e : Expr}

/-- A node has the same fault where the name that it calls refers to the same. -/
theorem fault_congr (h : ∀ t, e.calledName? = some t → env.SameAt env' t) :
    e.fault env' = e.fault env := by
  unfold fault
  cases hc : e.calledName? with
  | none => rfl
  | some t => simp only [(h t hc).canCall]

end Expr

namespace Sandbox

variable {σ : Type} {env env' : Environment}

/-- What becomes of a source in an examination depends on the names that its tree mentions. -/
theorem examined_of_mentioned {options : SandboxOptions} {source : Text}
    (h : ∀ tree, parse source options.maxDepth = .ok tree →
      ∀ t ∈ tree.mentioned, env.SameAt env' t) :
    examined env' options source = examined env options source := by
  unfold examined
  cases htokens : tokenize source with
  | error cause => rfl
  | ok tokens =>
    cases hwhole : Parser.whole options.maxDepth tokens with
    | error cause => simp only [bind, Except.bind, hwhole]
    | ok tree =>
      have hparse : parse source options.maxDepth = .ok tree := by
        simp only [parse, htokens, hwhole]
      have hmentioned := h tree hparse
      have hvalidate : validate env' options tree = validate env options tree :=
        validate_congr rfl fun node hnode => Expr.fault_congr fun t ht =>
          hmentioned t (Expr.mem_mentioned hnode (Expr.mentionedName?_of_called ht))
      simp only [bind, Except.bind, hwhole, hvalidate]

/-- Evaluators over environments that have the same under the mentioned names agree on a tree. -/
theorem agrees_of_mentioned (host : Host σ) (options : SandboxOptions) (source : Text) {tree : Expr}
    (h : ∀ t ∈ tree.mentioned, env.SameAt env' t) :
    Evaluator.Agrees ⟨env, host, options, source⟩ ⟨env', host, options, source⟩ (tree.nodes 0) where
  source := rfl
  nullSafeMember := rfl
  depth _ _ := Iff.rfl
  lookup node hnode t ht := (h t (Expr.mem_mentioned hnode (by rw [ht]; rfl))).lookup
  callee node hnode t ht :=
    (h t (Expr.mem_mentioned hnode (Expr.mentionedName?_of_called ht))).callee?
  call _ _ _ _ _ _ := rfl

/-- An expression depends only on the names that it mentions. Over two environments that have the
same under each of them a source has the same outcome and leaves the host in the same state,
whatever was called before. -/
theorem evaluate_of_mentioned (host : Host σ) (options : SandboxOptions) {source : Text}
    (h : ∀ tree, parse source options.maxDepth = .ok tree →
      ∀ t ∈ tree.mentioned, env.SameAt env' t)
    (calls calls' : List SandboxCall) (start start' state : σ) :
    let s := (afterCalls host (fresh env options) start calls).1
    let s' := (afterCalls host (fresh env' options) start' calls').1
    let run := s.evaluate host source state
    let run' := s'.evaluate host source state
    run'.1 = run.1 ∧ run'.2.2 = run.2.2 := by
  intro s s' run run'
  have hreaches : (fresh env options).Reaches s := reaches_afterCalls host calls _ start
  have hreaches' : (fresh env' options).Reaches s' := reaches_afterCalls host calls' _ start'
  have hrun := run_of_reaches hreaches host source state
  have hrun' := run_of_reaches hreaches' host source state
  rw [examined_of_mentioned h] at hrun'
  cases hexamined : examined env options source with
  | error cause =>
    rw [hexamined] at hrun hrun'
    exact Prod.mk.inj (hrun'.trans hrun.symm)
  | ok tree =>
    have hagrees := agrees_of_mentioned host options source (h tree (of_examined hexamined).1)
    have hsteps := Evaluator.evaluate_congr tree 0 hagrees
    rw [hexamined] at hrun hrun'
    dsimp only at hrun hrun'
    rw [Expr.evaluate, hsteps] at hrun'
    exact Prod.mk.inj (hrun'.trans hrun.symm)

/-- The plain key `b` and the name behind the point are not mentioned, so that the data may differ
there; the order of the data does not matter. -/
theorem evaluate_of_mentioned_counted :
    let host : Host Nat := ⟨fun _ _ n => (.ok (.int n), n + 1)⟩
    let count : Value := .function (.host 0 "count")
    let env : Environment := ⟨[("a", .null), ("f", count), ("b", .int 1)], []⟩
    let env' : Environment := ⟨[("b", .text "x"), ("f", count), ("a", .null)], []⟩
    let options : SandboxOptions := ⟨11, 5, 5, true⟩
    let source : Text := "\x7bb: f(a)\x7d.b"
    let s := (afterCalls host (fresh env options) 3 [.evaluate "b"]).1
    let s' := (afterCalls host (fresh env' options) 7 []).1
    let run := s.evaluate host source 5
    let run' := s'.evaluate host source 5
    (∀ tree, parse source options.maxDepth = .ok tree → ∀ t ∈ tree.mentioned, env.SameAt env' t) ∧
      run'.1 = run.1 ∧ run'.2.2 = run.2.2 := by
  intro host count env env' options source
  have h : ∀ tree, parse source options.maxDepth = .ok tree →
      ∀ t ∈ tree.mentioned, env.SameAt env' t := by
    have hparse : parse source options.maxDepth =
        .ok (.member (.object [.keyed (.name "b") (.call (.name "f") [.name "a"])]) "b") := rfl
    intro tree htree t ht
    obtain rfl := Except.ok.inj (hparse.symm.trans htree)
    have hnames : t = "f" ∨ t = "a" := by
      simpa [Expr.mentioned, Expr.nodes, Expr.nodesOfAll, Expr.nodesOfProperties,
        Expr.nodesOfKey, Expr.mentionedName?, Expr.calledName?] using ht
    obtain rfl | rfl := hnames
    · exact ⟨rfl, rfl⟩
    · exact ⟨rfl, rfl⟩
  exact ⟨h, evaluate_of_mentioned host options h [.evaluate "b"] [] 3 7 5⟩

end Sandbox

end SceneTemplates
