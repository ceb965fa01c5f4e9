import SceneTemplates.Proofs.AgreeingEvaluators
import SceneTemplates.Proofs.FixedData
import SceneTemplates.Proofs.ParserNesting

/-!
# Looser bounds

A bound on length, depth or number of nodes can only end an evaluation early. With looser bounds
everything goes as before, unless a bound was the error: the parser and the validation go on where
they stopped, and the evaluation of a tree that passed does not meet the bounds at all.
-/
namespace SceneTemplates

/-- The second options allow whatever the first ones do, and treat members alike. -/
structure SandboxOptions.Tighter (options options' : SandboxOptions) : Prop where
  maxLength : options.maxLength ≤ options'.maxLength
  maxDepth : options.maxDepth ≤ options'.maxDepth
  maxNodes : options.maxNodes ≤ options'.maxNodes
  nullSafeMember : options'.nullSafeMember = options.nullSafeMember

/-- A bound that was hit: of length, depth or number of nodes. -/
def ExpressionCause.IsBound : ExpressionCause → Prop
  | .tooLong _ | .tooDeep | .tooComplex => True
  | _ => False

/-- The second outcome is the first one, unless that is a bound that was hit. -/
def UnlessBound {α : Type} (first second : Except ExpressionCause α) : Prop :=
  (∃ cause, first = .error cause ∧ cause.IsBound) ∨ first = second

namespace UnlessBound

variable {α β : Type} {first second : Except ExpressionCause α}

theorem refl (outcome : Except ExpressionCause α) : UnlessBound outcome outcome := .inr rfl

theorem ofBound (cause : ExpressionCause) (h : cause.IsBound) (other : Except ExpressionCause α) :
    UnlessBound (.error cause) other := .inl ⟨cause, rfl, h⟩

theorem ofWithin (h : Within first second) : UnlessBound first second := by
  obtain rfl | rfl := h
  · exact ofBound .tooDeep trivial second
  · exact refl first

theorem bind {f g : α → Except ExpressionCause β} (h : UnlessBound first second)
    (hfg : ∀ a, UnlessBound (f a) (g a)) : UnlessBound (first >>= f) (second >>= g) := by
  obtain ⟨cause, rfl, hbound⟩ | rfl := h
  · exact ofBound cause hbound _
  · cases first with
    | error cause => exact refl _
    | ok a => exact hfg a

end UnlessBound

variable {options options' : SandboxOptions} (h : options.Tighter options')

include h

namespace Validation

theorem enter_looser (depth count : Nat) :
    UnlessBound (enter options depth count) (enter options' depth count) := by
  have hdepth := h.maxDepth
  have hnodes := h.maxNodes
  by_cases hd : options.maxDepth < depth
  · have htight : enter options depth count = .error .tooDeep := by simp [enter, hd]
    rw [htight]
    exact UnlessBound.ofBound .tooDeep trivial _
  by_cases hn : options.maxNodes < (count + 1 : Nat)
  · have htight : enter options depth count = .error .tooComplex := by
      rw [enter, if_neg hd, if_pos hn]
    rw [htight]
    exact UnlessBound.ofBound .tooComplex trivial _
  have hd' : ¬ options'.maxDepth < depth := by omega
  have hn' : ¬ options'.maxNodes < (count + 1 : Nat) := by omega
  rw [enter, enter, if_neg hd, if_neg hn, if_neg hd', if_neg hn']
  exact UnlessBound.refl _

theorem scan_looser (env : Environment) (nodes : List (Nat × Expr)) (count : Nat) :
    UnlessBound (scan env options count nodes) (scan env options' count nodes) := by
  induction nodes generalizing count with
  | nil => exact UnlessBound.refl _
  | cons node rest ih =>
    refine (enter_looser h node.1 count).bind fun after => ?_
    cases node.2.fault env with
    | some cause => exact UnlessBound.refl _
    | none => exact ih after

end Validation

theorem validate_looser (env : Environment) (e : Expr) :
    UnlessBound (validate env options e) (validate env options' e) := by
  have hscan := Validation.scan_looser h env (e.nodes 0) 0
  rw [validate, validate, Validation.visit_eq_scan, Validation.visit_eq_scan]
  obtain ⟨cause, hc, hbound⟩ | heq := hscan
  · exact .inl ⟨cause, by rw [hc]; rfl, hbound⟩
  · exact .inr (by rw [heq])

omit h

namespace Sandbox

/-- With looser bounds a source is examined alike, unless a bound was hit. -/
theorem examined_looser (h : options.Tighter options') (env : Environment) (source : Text) :
    UnlessBound (examined env options source) (examined env options' source) := by
  have hlength := h.maxLength
  unfold examined
  by_cases hlong : options.maxLength < source.length
  · rw [if_pos hlong]
    exact UnlessBound.ofBound (.tooLong options.maxLength) trivial _
  have hlong' : ¬ options'.maxLength < source.length := by omega
  rw [if_neg hlong, if_neg hlong']
  refine (UnlessBound.refl _).bind fun tokens => ?_
  refine (UnlessBound.ofWithin (Parser.whole_within h.maxDepth tokens)).bind fun tree => ?_
  exact (validate_looser h env tree).bind fun _ => UnlessBound.refl _

variable {σ : Type}

/-- A sandbox that has not been called examines the source and evaluates its tree. -/
theorem evaluate_fresh (host : Host σ) (env : Environment) (options : SandboxOptions)
    (source : Text) (state : σ) :
    (fresh env options).evaluate host source state =
      match examined env options source with
      | .error cause => (.error (.inSource source cause), fresh env options, state)
      | .ok tree =>
        let ran := tree.evaluate ⟨env, host, options, source⟩ state
        (ran.1, ⟨env, options, [(source, tree)]⟩, ran.2) := by
  have hcompile : (fresh env options).compile source =
      ((fresh env options).examine source).map fun tree =>
        (tree, ⟨env, options, [(source, tree)]⟩) := rfl
  rw [evaluate, hcompile, examine_eq]
  rw [show (fresh env options).environment = env from rfl,
    show (fresh env options).options = options from rfl]
  cases examined env options source <;> rfl

/-- A source that is accepted is parsed to its tree, which passes. -/
theorem of_examined {env : Environment} {options : SandboxOptions} {source : Text} {tree : Expr}
    (h : examined env options source = .ok tree) :
    parse source options.maxDepth = .ok tree ∧ validate env options tree = .ok () :=
  (examined_eq_ok.1 h).2

/-- Bounds are transparent. With looser ones the evaluation of a source on a fresh sandbox has the
same outcome and leaves the host in the same state, unless a bound on length, depth or number of
nodes was the error. -/
theorem evaluate_of_tighter (host : Host σ) (env : Environment) (h : options.Tighter options')
    (source : Text) (state : σ) :
    let tight := (fresh env options).evaluate host source state
    let loose := (fresh env options').evaluate host source state
    (∃ cause : ExpressionCause, cause.IsBound ∧ tight.1 = .error (.inSource source cause)) ∨
      (tight.1 = loose.1 ∧ tight.2.2 = loose.2.2) := by
  intro tight loose
  have htight : tight = _ := evaluate_fresh host env options source state
  have hloose : loose = _ := evaluate_fresh host env options' source state
  obtain ⟨cause, hcause, hbound⟩ | hsame := examined_looser h env source
  · refine .inl ⟨cause, hbound, ?_⟩
    rw [htight, hcause]
  · refine .inr ?_
    rw [htight, hloose, ← hsame]
    cases hexamined : examined env options source with
    | error cause => exact ⟨rfl, rfl⟩
    | ok tree =>
      -- No node of the tree is deeper than the tight bound, so that neither evaluator refuses one.
      have hdepth := (validate_eq_ok.1 (of_examined hexamined).2).1.depth
      have hagrees : Evaluator.Agrees ⟨env, host, options, source⟩ ⟨env, host, options', source⟩
          (tree.nodes 0) :=
        { source := rfl
          nullSafeMember := h.nullSafeMember
          depth := fun node hnode => by
            have htight := hdepth node hnode
            have hloose := h.maxDepth
            dsimp only
            omega
          lookup := fun _ _ _ _ => rfl
          callee := fun _ _ _ _ => rfl
          call := fun _ _ _ _ _ _ => rfl }
      have hsteps := Evaluator.evaluate_congr tree 0 hagrees
      simp only [Expr.evaluate, hsteps, and_self]

/-- A call of a host function in the alternative of a choice, with bounds that just allow it. -/
theorem evaluate_of_tighter_count :
    let options : SandboxOptions := ⟨8, 3, 5, true⟩
    let options' : SandboxOptions := ⟨10000, 200, 5000, true⟩
    let host : Host Nat := ⟨fun _ _ n => (.ok (.int n), n + 1)⟩
    let env : Environment := ⟨[("f", .function (.host 0 "count"))], []⟩
    let tight := (fresh env options).evaluate host "0?1:f(f)" 7
    let loose := (fresh env options').evaluate host "0?1:f(f)" 7
    options.Tighter options' ∧
      ((∃ cause : ExpressionCause, cause.IsBound ∧ tight.1 = .error (.inSource "0?1:f(f)" cause)) ∨
        (tight.1 = loose.1 ∧ tight.2.2 = loose.2.2)) := by
  have h : SandboxOptions.Tighter ⟨8, 3, 5, true⟩ ⟨10000, 200, 5000, true⟩ :=
    ⟨by decide, by decide, by decide, rfl⟩
  exact ⟨h, evaluate_of_tighter _ _ h "0?1:f(f)" 7⟩

end Sandbox

end SceneTemplates
