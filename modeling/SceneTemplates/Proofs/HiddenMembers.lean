import SceneTemplates.Proofs.AlikeCalls
import SceneTemplates.Proofs.CheckedEvaluation
import SceneTemplates.Proofs.LooserBounds

/-!
# Hidden members

Two evaluations of one source over data that are alike go the same way: what the operators, members
and calls give is alike, and the errors are the same. They part only at a call of `max` or `min`
that is refused, where two members are not equal and have no order: on one side only, or on both
with texts of their own, as the members at which the order ends may be others.
-/
namespace SceneTemplates

open Value

variable {σ : Type}

/-- Environments with data that are alike under the same names and the same functions behind. -/
structure Environment.Alike (env env' : Environment) : Prop where
  data : AlikeEntries (fun _ => false) env.data env'.data
  globals : env'.globals = env.globals

/-- The functions of a host respect what is alike: on arguments that are alike, from states in a
relation, they give values that are alike or one failure, and leave states in the relation. -/
structure Host.Respects (host : Host σ) (R : σ → σ → Prop) : Prop where
  outcome : ∀ name {args args'} {state state'}, AlikeItems args args' → R state state' →
    AlikeOutcomes Alike (host.call name args state).1 (host.call name args' state').1
  state : ∀ name {args args'} {state state'}, AlikeItems args args' → R state state' →
    R (host.call name args state).2 (host.call name args' state').2

/-- The texts of exceptions speak of types, numbers, texts, keys and lengths only. A function that
orders its arguments is apart: it speaks of the members at which the order ends, and which these are
may depend on all entries of a mapping. -/
def Wording.OfOutlines (wording : Wording) : Prop :=
  ∀ g args, g.isExtreme = false →
    wording.words g (outlineItems args) = wording.words g args

theorem Wording.OfOutlines.words_eq {wording : Wording} (h : wording.OfOutlines)
    {g : GlobalFunction} (hg : g.isExtreme = false) {args args' : List Value}
    (hargs : AlikeItems args args') : wording.words g args' = wording.words g args := by
  rw [← h g args' hg, ← h g args hg, hargs.outlineItems]

/-! ## Names and validation -/

namespace Environment.Alike

variable {env env' : Environment}

theorem get? (h : env.Alike env') (name : Text) :
    Option.Rel Value.Alike (env.data.get? name) (env'.data.get? name) :=
  h.data.get? rfl

theorem lookup (h : env.Alike env') (name : Text) :
    Value.Alike (env.lookup name) (env'.lookup name) := by
  have hstored := h.get? name
  unfold Environment.lookup
  rw [h.globals]
  generalize env.data.get? name = stored, env'.data.get? name = stored' at hstored ⊢
  cases hstored with
  | none => exact .same _
  | some hv => exact hv

theorem callee? (h : env.Alike env') (name : Text) :
    Option.Rel Value.Alike (env.callee? name) (env'.callee? name) := by
  have hstored := h.get? name
  unfold Environment.callee?
  rw [h.globals]
  generalize env.data.get? name = stored, env'.data.get? name = stored' at hstored ⊢
  cases hstored with
  | none => exact rel_refl .same _
  | some hv =>
    cases hv with
    | same v => exact rel_refl .same _
    | list identity h => exact .some (.list identity h)
    | tuple identity h => exact .some (.tuple identity h)
    | mapping identity h => exact .some (.mapping identity h)
    | object handle h => exact .some (.object handle h)
    | literal identity h hshown => exact .some (.literal identity h hshown)

theorem callee?_function (h : env.Alike env') {name : Text} {f : Function}
    (hf : env.callee? name = some (.function f)) :
    env'.callee? name = some (.function f) := by
  have hcallee := h.callee? name
  rw [hf] at hcallee
  generalize env'.callee? name = callee' at hcallee ⊢
  cases hcallee with | some hv =>
  cases hv
  rfl

theorem canCall (h : env.Alike env') (name : Text) : env'.canCall name = env.canCall name := by
  have hcallee := h.callee? name
  unfold Environment.canCall
  generalize env.callee? name = callee, env'.callee? name = callee' at hcallee ⊢
  cases hcallee with
  | none => rfl
  | some hv => cases hv <;> rfl

theorem fault (h : env.Alike env') (e : Expr) : e.fault env' = e.fault env := by
  unfold Expr.fault
  simp only [h.canCall]

/-- Validation does not tell the environments apart. -/
theorem validate (h : env.Alike env') (options : SandboxOptions) (e : Expr) :
    validate env' options e = validate env options e :=
  validate_congr rfl fun node _ => h.fault node.2

theorem examined (h : env.Alike env') (options : SandboxOptions) (source : Text) :
    Sandbox.examined env' options source = Sandbox.examined env options source := by
  simp only [Sandbox.examined, h.validate]

end Environment.Alike

/-! ## Two runs -/

namespace Evaluation

variable {α β : Type}

/-- The errors with which two runs may part: one run alone, or both with errors of their own. -/
structure Parting where
  first : ExpressionError → Prop
  second : ExpressionError → Prop
  both : ExpressionError → ExpressionError → Prop

/-- Two runs that end alike, with the states of the host in a relation, or part. -/
inductive Joined (R : σ → σ → Prop) (p : Parting) (r : α → α → Prop) :
    Except ExpressionError α × σ → Except ExpressionError α × σ → Prop where
  | alike {outcome outcome' : Except ExpressionError α} {after after' : σ}
      (h : AlikeOutcomes r outcome outcome') (hafter : R after after') :
      Joined R p r (outcome, after) (outcome', after')
  | first {e : ExpressionError} (after : σ) (ran' : Except ExpressionError α × σ)
      (h : p.first e) : Joined R p r (.error e, after) ran'
  | second {e : ExpressionError} (ran : Except ExpressionError α × σ) (after' : σ)
      (h : p.second e) : Joined R p r ran (.error e, after')
  | both {e e' : ExpressionError} {after after' : σ} (h : p.both e e') (hafter : R after after') :
      Joined R p r (.error e, after) (.error e', after')

/-- Two computations that run alike from states in the relation, or part. -/
def Tied (R : σ → σ → Prop) (p : Parting) (r : α → α → Prop) (m m' : Evaluation σ α) : Prop :=
  ∀ state state', R state state' → Joined R p r (m.run.run state) (m'.run.run state')

namespace Tied

variable {R : σ → σ → Prop} {p : Parting} {r : α → α → Prop} {q : β → β → Prop}

theorem ofPure {a a' : α} (h : r a a') : Tied R p r (pure a : Evaluation σ α) (pure a') :=
  fun _ _ hstate => .alike (.ok h) hstate

theorem ofThrow (e : ExpressionError) : Tied R p r (throw e : Evaluation σ α) (throw e) :=
  fun _ _ hstate => .alike (.error e) hstate

/-- Two computations go on alike, if they do so from what a run of each gave. -/
theorem andThenRuns {m m' : Evaluation σ α} {f f' : α → Evaluation σ β} (hm : Tied R p r m m')
    (hf : ∀ {state state' a a' after after'}, R state state' → m.run.run state = (.ok a, after) →
      m'.run.run state' = (.ok a', after') → r a a' → R after after' →
      Joined R p q ((f a).run.run after) ((f' a').run.run after')) :
    Tied R p q (m >>= f) (m' >>= f') := by
  intro state state' hstate
  have h := hm state state' hstate
  rw [Step.run_bind, Step.run_bind]
  generalize hran : m.run.run state = ran, hran' : m'.run.run state' = ran' at h ⊢
  cases h with
  | alike h hafter =>
    cases h with
    | ok ha => exact hf hstate hran hran' ha hafter
    | error e => exact .alike (.error e) hafter
  | first after ran' h => exact .first after _ h
  | second ran after' h => exact .second _ after' h
  | both h hafter => exact .both h hafter

theorem andThen {m m' : Evaluation σ α} {f f' : α → Evaluation σ β} (hm : Tied R p r m m')
    (hf : ∀ {a a'}, r a a' → Tied R p q (f a) (f' a')) : Tied R p q (m >>= f) (m' >>= f') :=
  hm.andThenRuns fun _ _ _ ha hafter => hf ha _ _ hafter

theorem ite {c : Prop} [Decidable c] {m m' n n' : Evaluation σ α} (hm : Tied R p r m m')
    (hn : Tied R p r n n') : Tied R p r (if c then m else n) (if c then m' else n') := by
  split
  · exact hm
  · exact hn

end Tied

end Evaluation

open Evaluation (Tied Joined Parting)

namespace Evaluator

/-- Evaluators of one source over environments that are alike. -/
structure Paired (R : σ → σ → Prop) (ev ev' : Evaluator σ) : Prop where
  environment : ev.environment.Alike ev'.environment
  host : ev'.host = ev.host
  respects : ev.host.Respects R
  wording : ev.host.wording.OfOutlines
  options : ev'.options = ev.options
  source : ev'.source = ev.source

/-- The error of an evaluator at a call of a global function that it refuses. -/
def refusal (ev : Evaluator σ) (name : Text) (g : GlobalFunction) (args : List Value) :
    ExpressionError :=
  .inSource ev.source (.callFailed name (ev.host.wording.words g args))

/-- A call of `max` or `min` among nodes, to which two evaluators come with values that are alike
for its arguments. -/
structure OrderedCall (R : σ → σ → Prop) (ev ev' : Evaluator σ) (nodes : List (Nat × Expr))
    (name : Text) (g : GlobalFunction) (values values' : List Value) : Prop where
  isExtreme : g.isExtreme = true
  callee : ev.environment.callee? name = some (.function (.builtin g))
  evaluated : ∃ depth args state state' after after',
    (depth, .call (.name name) args) ∈ nodes ∧ R state state' ∧
      (ev.evaluateAll (depth + 1) args).run.run state = (.ok values, after) ∧
      (ev'.evaluateAll (depth + 1) args).run.run state' = (.ok values', after')
  alike : AlikeItems values values'

/-- Two evaluators part at a call of `max` or `min` that one of them refuses while the other one has
a result, or that both refuse for reasons of their own. -/
def refusals (R : σ → σ → Prop) (ev ev' : Evaluator σ) (nodes : List (Nat × Expr)) : Parting where
  first e := ∃ name g values values', OrderedCall R ev ev' nodes name g values values' ∧
    RefusedAlone (g.apply values) (g.apply values') ∧ e = ev.refusal name g values
  second e := ∃ name g values values', OrderedCall R ev ev' nodes name g values values' ∧
    RefusedAlone (g.apply values') (g.apply values) ∧ e = ev'.refusal name g values'
  both e e' := e ≠ e' ∧ ∃ name g values values',
    OrderedCall R ev ev' nodes name g values values' ∧
      g.apply values = .error .refused ∧ g.apply values' = .error .refused ∧
      e = ev.refusal name g values ∧ e' = ev'.refusal name g values'

abbrev TiedAt {α : Type} (R : σ → σ → Prop) (ev ev' : Evaluator σ) (nodes : List (Nat × Expr))
    (r : α → α → Prop) (m m' : Evaluation σ α) : Prop :=
  Tied R (refusals R ev ev' nodes) r m m'

variable {R : σ → σ → Prop} {ev ev' : Evaluator σ} {nodes : List (Nat × Expr)}

theorem Paired.refusal (h : Paired R ev ev') (name : Text) (g : GlobalFunction)
    (args : List Value) : ev'.refusal name g args = ev.refusal name g args := by
  unfold Evaluator.refusal
  rw [h.host, h.source]

theorem fail_tied {α : Type} {r : α → α → Prop} (h : Paired R ev ev') (cause : ExpressionCause) :
    TiedAt R ev ev' nodes r (ev.fail cause) (ev'.fail cause) := by
  unfold Evaluator.fail
  rw [h.source]
  exact Tied.ofThrow _

theorem result_tied (h : Paired R ev ev') {outcome outcome' : Except ExpressionCause Value}
    (heq : outcome' = outcome) :
    TiedAt R ev ev' nodes Value.Alike (ev.result outcome) (ev'.result outcome') := by
  subst heq
  cases outcome' with
  | ok v => exact Tied.ofPure (.same v)
  | error cause => exact fail_tied h cause

/-- The check of the depth of a node. -/
theorem depth_tied {α : Type} {r : α → α → Prop} (h : Paired R ev ev') (depth : Nat)
    {m m' : Evaluation σ α} (hm : TiedAt R ev ev' nodes r m m') :
    TiedAt R ev ev' nodes r (if ev.options.maxDepth < depth then ev.fail .tooDeep else m)
      (if ev'.options.maxDepth < depth then ev'.fail .tooDeep else m') := by
  rw [h.options]
  exact Tied.ite (fail_tied h _) hm

theorem member_tied (h : Paired R ev ev') {v v' : Value} (hv : Value.Alike v v') (property : Text) :
    TiedAt R ev ev' nodes Value.Alike (ev.member v property) (ev'.member v' property) := by
  unfold Evaluator.member
  rw [h.options, hv.isNullish, hv.kind]
  split
  · exact fail_tied h _
  · next hallowed =>
    refine Tied.ite (Tied.ite (Tied.ofPure (.same _)) (fail_tied h _)) (Tied.ofPure ?_)
    exact hv.property (by simpa using hallowed)

/-- A call of a host function. -/
theorem callHost_tied (h : Paired R ev ev') (name hostName : Text) (id : Nat)
    {args args' : List Value} (hargs : AlikeItems args args') :
    TiedAt R ev ev' nodes Value.Alike (ev.call name (.host id hostName) args)
      (ev'.call name (.host id hostName) args') := by
  unfold Evaluator.call
  rw [h.host]
  refine Tied.andThen (r := AlikeOutcomes Value.Alike) ?_ fun houtcome => ?_
  · intro state state' hstate
    exact .alike (.ok (h.respects.outcome hostName hargs hstate))
      (h.respects.state hostName hargs hstate)
  · cases houtcome with
    | ok hv => exact Tied.ofPure hv.collapse
    | error failure =>
      cases failure with
      | failed => exact fail_tied h _
      | raised e => exact Tied.ofThrow e

/-- A call of a global function with results that are alike, and one text for a refusal. -/
theorem callBuiltin_tied (h : Paired R ev ev') (name : Text) {g : GlobalFunction}
    {args args' : List Value}
    (hresults : AlikeOutcomes Value.Alike (g.apply args) (g.apply args'))
    (hwords : g.apply args = .error .refused →
      ev.host.wording.words g args' = ev.host.wording.words g args) :
    TiedAt R ev ev' nodes Value.Alike (ev.call name (.builtin g) args)
      (ev'.call name (.builtin g) args') := by
  unfold Evaluator.call
  rw [h.host]
  dsimp only
  generalize g.apply args = result, g.apply args' = result' at hresults hwords ⊢
  cases hresults with
  | ok hv => exact Tied.ofPure hv.collapse
  | error failure =>
    cases failure with
    | refused =>
      dsimp only
      rw [hwords rfl]
      exact fail_tied h _
    | tooLarge g => exact fail_tied h _

theorem run_call_refused (ev : Evaluator σ) (name : Text) {g : GlobalFunction}
    {args : List Value} (h : g.apply args = .error .refused) (state : σ) :
    (ev.call name (.builtin g) args).run.run state = (.error (ev.refusal name g args), state) := by
  unfold Evaluator.call
  dsimp only
  rw [h]
  rfl

/-- A call of a function that orders its arguments. -/
theorem callExtreme_joined (h : Paired R ev ev') {name : Text} {g : GlobalFunction}
    {values values' : List Value} (hcall : OrderedCall R ev ev' nodes name g values values')
    {after after' : σ} (hafter : R after after') :
    Joined R (refusals R ev ev' nodes) Value.Alike
      ((ev.call name (.builtin g) values).run.run after)
      ((ev'.call name (.builtin g) values').run.run after') := by
  obtain hresults | hrefused | hrefused := GlobalFunction.apply_extreme hcall.isExtreme hcall.alike
  · by_cases hwords : ev.refusal name g values = ev'.refusal name g values'
    · refine callBuiltin_tied h name hresults (fun _ => ?_) after after' hafter
      rw [h.refusal] at hwords
      simpa [refusal, ExpressionError.inSource] using hwords.symm
    · by_cases hrefused : g.apply values = .error .refused
      · have hrefused' : g.apply values' = .error .refused := by
          rw [hrefused] at hresults
          exact hresults.eq_error
        rw [run_call_refused ev name hrefused, run_call_refused ev' name hrefused']
        exact .both ⟨hwords, name, g, values, values', hcall, hrefused, hrefused', rfl, rfl⟩ hafter
      · exact callBuiltin_tied h name hresults (absurd · hrefused) after after' hafter
  · rw [run_call_refused ev name hrefused.1]
    exact .first after _ ⟨name, g, values, values', hcall, hrefused, rfl⟩
  · rw [run_call_refused ev' name hrefused.1]
    exact .second _ after' ⟨name, g, values, values', hcall, hrefused, rfl⟩

/-- A call by a name. -/
theorem call_tied (h : Paired R ev ev') {depth : Nat} {name : Text} {args : List Expr}
    (hnode : (depth, .call (.name name) args) ∈ nodes)
    (hargs : TiedAt R ev ev' nodes AlikeItems (ev.evaluateAll (depth + 1) args)
      (ev'.evaluateAll (depth + 1) args)) {f : Function}
    (hf : ev.environment.callee? name = some (.function f)) :
    TiedAt R ev ev' nodes Value.Alike (ev.evaluateAll (depth + 1) args >>= ev.call name f)
      (ev'.evaluateAll (depth + 1) args >>= ev'.call name f) := by
  refine hargs.andThenRuns fun {state state' values values' after after'} hstate hran hran'
    hvalues hafter => ?_
  cases f with
  | host id hostName => exact callHost_tied h name hostName id hvalues after after' hafter
  | builtin g =>
    cases hg : g.isExtreme with
    | false =>
      have hresults := GlobalFunction.apply_alike hg hvalues
      have hwords := h.wording.words_eq hg hvalues
      exact callBuiltin_tied h name hresults (fun _ => hwords) after after' hafter
    | true =>
      exact callExtreme_joined h
        { isExtreme := hg
          callee := hf
          evaluated := ⟨depth, args, state, state', after, after', hnode, hstate, hran, hran'⟩
          alike := hvalues } hafter

mutual

/-- A tree is evaluated alike over environments that are alike. -/
theorem evaluate_tied (h : Paired R ev ev') (e : Expr) (depth : Nat)
    (hsub : e.nodes depth ⊆ nodes) :
    TiedAt R ev ev' nodes Value.Alike (ev.evaluate depth e) (ev'.evaluate depth e) := by
  have hself := hsub (Expr.self_mem_nodes depth e)
  rw [evaluate.eq_def, evaluate.eq_def]
  refine depth_tied h depth ?_
  match e with
  | .constant c => exact Tied.ofPure (.same _)
  | .name t => exact Tied.ofPure (h.environment.lookup t)
  | .unary op operand =>
    rw [Expr.nodes, List.cons_subset] at hsub
    refine (evaluate_tied h operand (depth + 1) hsub.2).andThen fun hv => ?_
    exact result_tied h (hv.operateUnary op)
  | .binary op left right =>
    rw [Expr.nodes, List.cons_subset, List.append_subset] at hsub
    have hright := evaluate_tied h right (depth + 1) hsub.2.2
    refine (evaluate_tied h left (depth + 1) hsub.2.1).andThen fun {a a'} ha => ?_
    split
    · rw [ha.isTruthy]
      exact Tied.ite hright (Tied.ofPure ha)
    · rw [ha.isTruthy]
      exact Tied.ite (Tied.ofPure ha) hright
    · rw [ha.isNullish]
      exact Tied.ite hright (Tied.ofPure ha)
    · exact hright.andThen fun hb => result_tied h (ha.operate hb op)
  | .conditional test consequent alternate =>
    rw [Expr.nodes, List.cons_subset, List.append_subset, List.append_subset] at hsub
    refine (evaluate_tied h test (depth + 1) hsub.2.1).andThen fun ht => ?_
    rw [ht.isTruthy]
    exact Tied.ite (evaluate_tied h consequent (depth + 1) hsub.2.2.1)
      (evaluate_tied h alternate (depth + 1) hsub.2.2.2)
  | .member base property =>
    rw [Expr.nodes, List.cons_subset] at hsub
    exact (evaluate_tied h base (depth + 1) hsub.2).andThen fun hv => member_tied h hv property
  | .call callee args =>
    rw [Expr.nodes, List.cons_subset] at hsub
    have hargs := evaluateAll_tied h args (depth + 1) hsub.2
    cases callee with
    | name t =>
      dsimp only
      by_cases hthere : ev.environment.canCall t = true
      · obtain ⟨f, hf⟩ := exists_function hthere
        have hf' := h.environment.callee?_function hf
        rw [hf, hf']
        exact call_tied h hself hargs hf
      · have hthere' : ¬ ev'.environment.canCall t = true := by rwa [h.environment.canCall]
        split
        · next f hf => exact absurd (canCall_of_callee? hf) hthere
        · split
          · next f hf => exact absurd (canCall_of_callee? hf) hthere'
          · exact fail_tied h _
    | _ => exact fail_tied h _
  | .array elements =>
    rw [Expr.nodes, List.cons_subset] at hsub
    refine (evaluateAll_tied h elements (depth + 1) hsub.2).andThen fun hvalues => ?_
    exact Tied.ofPure (.list .fresh hvalues)
  | .object properties =>
    rw [Expr.nodes, List.cons_subset] at hsub
    refine (evaluateProperties_tied h properties (.nil _) (depth + 1) hsub.2).andThen
      fun hentries => ?_
    exact Tied.ofPure (.mapping .fresh hentries)
  | .this | .index _ _ | .new _ _ | .assign _ _ _ | .update _ _ _ | .sequence _ | .spread _ =>
    exact fail_tied h _

theorem evaluateAll_tied (h : Paired R ev ev') (es : List Expr) (depth : Nat)
    (hsub : Expr.nodesOfAll depth es ⊆ nodes) :
    TiedAt R ev ev' nodes AlikeItems (ev.evaluateAll depth es) (ev'.evaluateAll depth es) := by
  match es with
  | [] =>
    rw [evaluateAll, evaluateAll]
    exact Tied.ofPure .nil
  | e :: rest =>
    rw [Expr.nodesOfAll, List.append_subset] at hsub
    rw [evaluateAll, evaluateAll]
    refine (evaluate_tied h e depth hsub.1).andThen fun hv => ?_
    refine (evaluateAll_tied h rest depth hsub.2).andThen fun hvalues => ?_
    exact Tied.ofPure (.cons hv hvalues)

theorem evaluateProperties_tied (h : Paired R ev ev') (ps : List Property)
    {entries entries' : Entries Value} (hentries : AlikeEntries isForbiddenKey entries entries')
    (depth : Nat) (hsub : Expr.nodesOfProperties depth ps ⊆ nodes) :
    TiedAt R ev ev' nodes (AlikeEntries isForbiddenKey) (ev.evaluateProperties depth entries ps)
      (ev'.evaluateProperties depth entries' ps) := by
  match ps with
  | [] =>
    rw [evaluateProperties, evaluateProperties]
    exact Tied.ofPure hentries
  | .keyed key value :: rest =>
    rw [Expr.nodesOfProperties, List.append_subset, List.append_subset] at hsub
    rw [evaluateProperties, evaluateProperties]
    refine (evaluateKey_tied h key depth hsub.1).andThen fun {k k'} hk => ?_
    obtain rfl : k' = k := hk
    refine (evaluate_tied h value depth hsub.2.1).andThen fun hv => ?_
    exact evaluateProperties_tied h rest (hentries.put k' hv) depth hsub.2.2
  | .shorthand t :: rest =>
    rw [Expr.nodesOfProperties, List.cons_subset] at hsub
    rw [evaluateProperties, evaluateProperties]
    have hname : TiedAt R ev ev' nodes Value.Alike (ev.name depth t) (ev'.name depth t) :=
      depth_tied h depth (Tied.ofPure (h.environment.lookup t))
    refine hname.andThen fun hv => ?_
    exact evaluateProperties_tied h rest (hentries.put t hv) depth hsub.2
  | .spread _ :: _ =>
    rw [evaluateProperties, evaluateProperties]
    exact fail_tied h _

/-- The text of a key is the same on both sides. -/
theorem evaluateKey_tied (h : Paired R ev ev') (key : PropertyKey) (depth : Nat)
    (hsub : Expr.nodesOfKey depth key ⊆ nodes) :
    TiedAt R ev ev' nodes (fun k k' => k' = k) (ev.evaluateKey depth key)
      (ev'.evaluateKey depth key) := by
  rw [evaluateKey.eq_def, evaluateKey.eq_def]
  match key with
  | .name t => exact Tied.ofPure rfl
  | .constant c => exact Tied.ofPure rfl
  | .computed e =>
    exact (evaluate_tied h e depth hsub).andThen fun hv => Tied.ofPure hv.toText

end

end Evaluator

/-- The nodes of a source with their depths; one that is not parsed has none. -/
def nodesOfSource (source : Text) (limit : Int) : List (Nat × Expr) :=
  match parse source limit with
  | .ok tree => tree.nodes 0
  | .error _ => []

theorem nodesOfSource_eq {source : Text} {limit : Int} {tree : Expr}
    (h : parse source limit = .ok tree) : nodesOfSource source limit = tree.nodes 0 := by
  rw [nodesOfSource, h]

namespace Sandbox

end Sandbox

end SceneTemplates
