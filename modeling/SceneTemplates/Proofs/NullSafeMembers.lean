import SceneTemplates.Proofs.LooserBounds
import SceneTemplates.Proofs.RelatedEvaluations
import SceneTemplates.Proofs.SyntaxErrors

/-!
# Null-safe members

Where a member of null is no error, an evaluation goes on where it would have ended with that error.
Nothing else is different: what comes to a value comes to the same value, and other errors stay the
same. Errors of this kind that remain were raised by a function of the host.
-/
namespace SceneTemplates

variable {σ : Type}

/-! ## What the host raises -/

/-- The host that notes in its state which error one of its functions raised, and is otherwise the
same. -/
def Host.noting (host : Host σ) : Host (σ × Option ExpressionError) where
  wording := host.wording
  call name args state :=
    let (outcome, after) := host.call name args state.1
    (outcome, after,
      match outcome with
      | .error (.raised e) => some e
      | _ => state.2)

namespace Evaluator

/-- A call of a function that is built in. -/
theorem call_builtin (ev : Evaluator σ) (name : Text) (g : GlobalFunction) (args : List Value) :
    ev.call name (.builtin g) args =
      match g.apply args with
      | .ok v => pure v.collapse
      | .error .refused => ev.fail (.callFailed name (ev.host.wording.words g args))
      | .error (.tooLarge h) => ev.fail (.resultTooLarge name h Integer.maxExactBits) := rfl

/-- What a call of a host function comes to. -/
theorem run_call_host (ev : Evaluator σ) (name : Text) (identity : Nat) (hostName : Text)
    (args : List Value) (state : σ) :
    (ev.call name (.host identity hostName) args).run.run state =
      match ev.host.call hostName args state with
      | (.ok v, after) => (.ok v.collapse, after)
      | (.error (.failed words), after) =>
        (.error (.inSource ev.source (.callFailed name words)), after)
      | (.error (.raised e), after) => (.error e, after) := by
  have hrun : (liftM (modifyGet (ev.host.call hostName args) : StateM σ _) :
      Evaluation σ _).run.run state =
        (.ok (ev.host.call hostName args state).1, (ev.host.call hostName args state).2) := rfl
  unfold call
  rw [Step.run_bind, hrun]
  rcases ev.host.call hostName args state with ⟨_ | v, after⟩
  · rename_i failure
    cases failure <;> rfl
  · rfl

def noting (ev : Evaluator σ) : Evaluator (σ × Option ExpressionError) :=
  ⟨ev.environment, ev.host.noting, ev.options, ev.source⟩

/-- A computation, and one that also notes what is raised: they end alike and in the same state. -/
def Noted (α : Type) (m : Evaluation σ α) (m' : Evaluation (σ × Option ExpressionError) α) : Prop :=
  ∀ state note, (m'.run.run (state, note)).1 = (m.run.run state).1 ∧
    (m'.run.run (state, note)).2.1 = (m.run.run state).2

/-- Noting what is raised does not change an evaluation. -/
theorem noted (ev : Evaluator σ) : Respected ev ev.noting Eq Noted where
  environment := rfl
  below := congrArg (· + 1)
  checked hd hm := by
    subst hd
    exact Respected.ite (fun _ _ => ⟨rfl, rfl⟩) hm
  ofPure a state note := ⟨rfl, rfl⟩
  andThen {α β m m' f f'} hm hf := by
    intro state note
    obtain ⟨houtcome, hstate⟩ := hm state note
    rw [Step.run_bind, Step.run_bind]
    rcases hran : m.run.run state with ⟨outcome, after⟩
    rcases hran' : m'.run.run (state, note) with ⟨outcome', after', note'⟩
    rw [hran, hran'] at houtcome hstate
    dsimp only at houtcome hstate
    subst houtcome hstate
    cases outcome' with
    | error e => exact ⟨rfl, rfl⟩
    | ok a => exact hf a after' note'
  fail cause _ state note := ⟨rfl, rfl⟩
  member object property := by
    have hfail : ∀ cause, Noted Value (ev.fail cause) (ev.noting.fail cause) :=
      fun cause state note => ⟨rfl, rfl⟩
    have hpure : ∀ v : Value, Noted Value (pure v : Evaluation σ Value) (pure v) :=
      fun v state note => ⟨rfl, rfl⟩
    exact Respected.ite (hfail _) (Respected.ite (Respected.ite (hpure _) (hfail _)) (hpure _))
  call name f args := by
    intro state note
    cases f with
    | builtin g =>
      rw [call_builtin, call_builtin]
      rcases g.apply args with failure | v
      · cases failure <;> exact ⟨rfl, rfl⟩
      · exact ⟨rfl, rfl⟩
    | host identity hostName =>
      have hcall : ev.noting.host.call hostName args (state, note) =
          ((ev.host.call hostName args state).1, (ev.host.call hostName args state).2, _) := rfl
      rw [run_call_host, run_call_host, hcall]
      rcases ev.host.call hostName args state with ⟨failure | v, after⟩
      · cases failure <;> exact ⟨rfl, rfl⟩
      · exact ⟨rfl, rfl⟩

/-- An evaluation over the host that notes ends as the one over the host itself. -/
theorem evaluate_noting (ev : Evaluator σ) (tree : Expr) (state : σ)
    (note : Option ExpressionError) :
    (tree.evaluate ev.noting (state, note)).1 = (tree.evaluate ev state).1 ∧
      (tree.evaluate ev.noting (state, note)).2.1 = (tree.evaluate ev state).2 :=
  evaluate_related ev.noted tree rfl state note

/-! ## Members of null -/

/-- The evaluator with members of null as an error, or without. -/
def withNullSafe (ev : Evaluator σ) (nullSafe : Bool) : Evaluator σ :=
  { ev with options := { ev.options with nullSafeMember := nullSafe } }

/-- A computation where a member of null is an error, and one where it is not, over hosts that note
what they raise. They run alike unless the first one ends with that error, which no host function
raised. The second one ends with an error of this kind only if a host function raised it. -/
structure Spares (source : Text) (α : Type)
    (m m' : Evaluation (σ × Option ExpressionError) α) : Prop where
  alike : ∀ state, m.run.run (state, none) = m'.run.run (state, none) ∨
    ((m.run.run (state, none)).2.2 = none ∧
      ∃ property isNull, (m.run.run (state, none)).1 =
        .error (.inSource source (.nullMember property isNull)))
  silent : ∀ state a, (m'.run.run (state, none)).1 = .ok a → (m'.run.run (state, none)).2.2 = none
  raised : ∀ state e, (m'.run.run (state, none)).1 = .error e → e.cause.kind = .nullDereference →
    (m'.run.run (state, none)).2.2 = some e

/-- A computation that does not ask for members and ends with no error of its own that is about
them. -/
theorem Spares.same {source : Text} {α : Type} {m : Evaluation (σ × Option ExpressionError) α}
    (h : ∀ state,
      (∀ a, (m.run.run (state, none)).1 = .ok a → (m.run.run (state, none)).2.2 = none) ∧
      ∀ e, (m.run.run (state, none)).1 = .error e → e.cause.kind = .nullDereference →
        (m.run.run (state, none)).2.2 = some e) : Spares source α m m :=
  ⟨fun _ => .inl rfl, fun state => (h state).1, fun state => (h state).2⟩

theorem Spares.ofPure {source : Text} {α : Type} (a : α) :
    Spares source α (pure a : Evaluation (σ × Option ExpressionError) α) (pure a) :=
  Spares.same fun _ => ⟨fun _ _ => rfl, fun _ h => by cases h⟩

theorem Spares.ofFail {source : Text} {α : Type} (ev : Evaluator (σ × Option ExpressionError))
    {cause : ExpressionCause} (h : cause.kind ≠ .nullDereference) :
    Spares source α (ev.fail cause) (ev.fail cause) :=
  Spares.same fun _ => by
    refine ⟨fun _ hok => ?_, fun e he hkind => ?_⟩
    · cases hok
    · cases he
      exact absurd hkind h

/-- A member of null is an error, or it is not. -/
theorem Spares.ofNullMember (ev : Evaluator (σ × Option ExpressionError)) (property : Text)
    (isNull : Bool) :
    Spares ev.source Value (ev.fail (.nullMember property isNull)) (pure .undefined) where
  alike _ := .inr ⟨rfl, property, isNull, rfl⟩
  silent _ _ _ := rfl
  raised _ _ h := by cases h

theorem Spares.andThen {source : Text} {α β : Type}
    {m m' : Evaluation (σ × Option ExpressionError) α}
    {f f' : α → Evaluation (σ × Option ExpressionError) β} (hm : Spares source α m m')
    (hf : ∀ a, Spares source β (f a) (f' a)) : Spares source β (m >>= f) (m' >>= f') := by
  -- Where the second computation ends well it has noted nothing, so that the rest starts afresh.
  have hrest : ∀ state a after, m'.run.run (state, none) = (.ok a, after) →
      ∃ state', after = (state', none) := by
    rintro state a ⟨state', note⟩ hrun
    have hnote := hm.silent state a (by rw [hrun])
    rw [hrun] at hnote
    exact ⟨state', by rw [← hnote]⟩
  refine ⟨fun state => ?_, fun state b => ?_, fun state e => ?_⟩
  · rw [Step.run_bind, Step.run_bind]
    obtain hsame | ⟨hnote, property, isNull, herror⟩ := hm.alike state
    · rw [hsame]
      rcases hrun : m'.run.run (state, none) with ⟨e | a, after⟩
      · exact .inl rfl
      · obtain ⟨state', rfl⟩ := hrest state a after hrun
        exact (hf a).alike state'
    · rcases hrun : m.run.run (state, none) with ⟨outcome, after⟩
      rw [hrun] at hnote herror
      dsimp only at hnote herror
      subst herror
      exact .inr ⟨hnote, property, isNull, rfl⟩
  · rw [Step.run_bind]
    rcases hrun : m'.run.run (state, none) with ⟨e | a, after⟩
    · intro h
      cases h
    · obtain ⟨state', rfl⟩ := hrest state a after hrun
      exact (hf a).silent state' b
  · rw [Step.run_bind]
    rcases hrun : m'.run.run (state, none) with ⟨e' | a, after⟩
    · have hraised := hm.raised state e'
      rw [hrun] at hraised
      intro h
      cases h
      exact hraised rfl
    · obtain ⟨state', rfl⟩ := hrest state a after hrun
      exact (hf a).raised state' e

/-- Without the error for members of null an evaluation goes as with it, up to that error. -/
theorem spares (ev : Evaluator σ) :
    Respected (ev.withNullSafe false).noting (ev.withNullSafe true).noting Eq
      (Spares ev.source) where
  environment := rfl
  below := congrArg (· + 1)
  checked hd hm := by
    subst hd
    exact Respected.ite (Spares.ofFail _ (by decide)) hm
  ofPure := Spares.ofPure
  andThen := Spares.andThen
  fail cause h := Spares.ofFail _ h
  member object property := by
    refine Respected.ite (Spares.ofFail _ (by simp [ExpressionCause.kind])) ?_
    refine Respected.ite ?_ (Spares.ofPure _)
    exact Spares.ofNullMember (ev.withNullSafe false).noting property _
  call name f args := by
    cases f with
    | builtin g =>
      rw [call_builtin, call_builtin]
      rcases g.apply args with failure | v
      · cases failure with
        | refused => exact Spares.ofFail _ (by simp [ExpressionCause.kind])
        | tooLarge h => exact Spares.ofFail _ (by simp [ExpressionCause.kind])
      · exact Spares.ofPure _
    | host identity hostName =>
      show Spares ev.source Value
        ((ev.withNullSafe true).noting.call name (.host identity hostName) args) _
      refine Spares.same fun state => ?_
      have hcall : (ev.withNullSafe true).noting.host.call hostName args (state, none) =
          ((ev.host.call hostName args state).1, (ev.host.call hostName args state).2,
            match (ev.host.call hostName args state).1 with
            | .error (.raised e) => some e
            | _ => none) := rfl
      rw [run_call_host, hcall]
      rcases ev.host.call hostName args state with ⟨failure | v, after⟩
      · cases failure with
        | failed =>
          refine ⟨fun _ h => by (cases h), fun e he hkind => ?_⟩
          cases he
          exact absurd hkind (by simp [ExpressionCause.kind, ExpressionError.inSource])
        | raised e' =>
          refine ⟨fun _ h => by (cases h), fun e he _ => ?_⟩
          cases he
          rfl
      · refine ⟨fun _ _ => rfl, fun e he => ?_⟩
        cases he

/-- An evaluation of a tree where a member of null is an error, and one where it is not. -/
theorem evaluate_withNullSafe (ev : Evaluator σ) (tree : Expr) (state : σ) :
    let strict := tree.evaluate (ev.withNullSafe false) state
    let safe := tree.evaluate (ev.withNullSafe true) state
    let raised (nullSafe : Bool) :=
      (tree.evaluate (ev.withNullSafe nullSafe).noting (state, none)).2.2
    (safe = strict ∨ (raised false = none ∧
        ∃ property isNull, strict.1 = .error (.inSource ev.source (.nullMember property isNull)))) ∧
      ∀ e, safe.1 = .error e → e.cause.kind = .nullDereference → raised true = some e := by
  intro strict safe raised
  obtain ⟨hstrict, hstrictState⟩ := evaluate_noting (ev.withNullSafe false) tree state none
  obtain ⟨hsafe, hsafeState⟩ := evaluate_noting (ev.withNullSafe true) tree state none
  have hspares := evaluate_related ev.spares tree (Eq.refl 0)
  refine ⟨?_, fun e he => hspares.raised state e (hsafe.trans he)⟩
  obtain halike | ⟨hnote, property, isNull, herror⟩ := hspares.alike state
  · left
    change tree.evaluate (ev.withNullSafe false).noting (state, none) =
      tree.evaluate (ev.withNullSafe true).noting (state, none) at halike
    rw [halike] at hstrict hstrictState
    exact Prod.ext (hsafe.symm.trans hstrict) (hsafeState.symm.trans hstrictState)
  · exact .inr ⟨hnote, property, isNull, hstrict.symm.trans herror⟩

end Evaluator

namespace Sandbox

/-- The error that a function of the host raises in the course of an evaluation, if one does. -/
def raised (s : Sandbox) (host : Host σ) (source : Text) (state : σ) : Option ExpressionError :=
  (s.evaluate host.noting source (state, none)).2.2.2

/-- The options with members of null as an error, or without do not matter for an examination. -/
@[simp] theorem examined_nullSafe (env : Environment) (options : SandboxOptions) (nullSafe : Bool)
    (source : Text) :
    examined env { options with nullSafeMember := nullSafe } source =
      examined env options source := by
  have hvalidate : ∀ tree, validate env { options with nullSafeMember := nullSafe } tree =
      validate env options tree := fun tree => validate_congr rfl fun _ _ => rfl
  simp only [examined, hvalidate]

variable {env : Environment} {options : SandboxOptions} {strict safe : Sandbox}

/-- Runs of one source where a member of null is an error, and where it is not. -/
theorem run_nullSafe (host : Host σ)
    (hstrict : (fresh env { options with nullSafeMember := false }).Reaches strict)
    (hsafe : (fresh env { options with nullSafeMember := true }).Reaches safe)
    (source : Text) (state : σ) :
    let ran := strict.evaluate host source state
    let ran' := safe.evaluate host source state
    ((ran'.1, ran'.2.2) = (ran.1, ran.2.2) ∨ (strict.raised host source state = none ∧
        ∃ property isNull, ran.1 = .error (.inSource source (.nullMember property isNull)))) ∧
      ∀ e, ran'.1 = .error e → e.cause.kind = .nullDereference →
        safe.raised host source state = some e := by
  intro ran ran'
  have hran := run_of_reaches hstrict host source state
  have hran' := run_of_reaches hsafe host source state
  have hnoted := run_of_reaches hstrict host.noting source (state, none)
  have hnoted' := run_of_reaches hsafe host.noting source (state, none)
  rw [examined_nullSafe] at hran hran' hnoted hnoted'
  cases hexamined : examined env options source with
  | error cause =>
    rw [hexamined] at hran hran'
    refine ⟨.inl (hran'.trans hran.symm), fun e he hkind => ?_⟩
    have hcause : Except.error (.inSource source cause) = Except.error e :=
      (Prod.mk.inj hran').1.symm.trans he
    obtain rfl := Except.error.inj hcause
    exact absurd hkind (examined_fails env options source cause hexamined)
  | ok tree =>
    rw [hexamined] at hran hran' hnoted hnoted'
    obtain ⟨halike, hraised⟩ := Evaluator.evaluate_withNullSafe
      ⟨env, host, options, source⟩ tree state
    have hnote : strict.raised host source state = _ := congrArg (·.2.2) hnoted
    have hnote' : safe.raised host source state = _ := congrArg (·.2.2) hnoted'
    refine ⟨?_, fun e he hkind => ?_⟩
    · obtain halike | ⟨hnone, property, isNull, herror⟩ := halike
      · exact .inl (hran'.trans (halike.trans hran.symm))
      · exact .inr ⟨hnote.trans hnone, property, isNull, (Prod.mk.inj hran).1.trans herror⟩
    · exact hnote'.trans (hraised e ((Prod.mk.inj hran').1.symm.trans he) hkind)

/-- Without the error for members of null, a source comes to the value that it comes to with it, and
fails with the same error, unless that is one for a member of null that no function of the host
raised. An error of this kind that remains was raised by a function of the host. All of that holds
whatever the two sandboxes were called for before. -/
theorem evaluate_nullSafe (host : Host σ) (env : Environment) (options : SandboxOptions)
    (calls calls' : List SandboxCall) (start start' : σ) (source : Text) (state : σ) :
    let strict := (afterCalls host
      (fresh env { options with nullSafeMember := false }) start calls).1
    let safe := (afterCalls host
      (fresh env { options with nullSafeMember := true }) start' calls').1
    let ran := strict.evaluate host source state
    let ran' := safe.evaluate host source state
    (∀ v, ran.1 = .ok v → ran'.1 = .ok v ∧ ran'.2.2 = ran.2.2) ∧
    (∀ e, ran.1 = .error e →
      (ran'.1 = .error e ∧ ran'.2.2 = ran.2.2) ∨
        (strict.raised host source state = none ∧
          ∃ property isNull, e = .inSource source (.nullMember property isNull))) ∧
    ∀ e, ran'.1 = .error e → e.cause.kind = .nullDereference →
      safe.raised host source state = some e := by
  intro strict safe ran ran'
  have hstrict : (fresh env { options with nullSafeMember := false }).Reaches strict :=
    reaches_afterCalls host calls _ start
  have hsafe : (fresh env { options with nullSafeMember := true }).Reaches safe :=
    reaches_afterCalls host calls' _ start'
  obtain ⟨halike, hraised⟩ := run_nullSafe host hstrict hsafe source state
  refine ⟨fun v hv => ?_, fun e he => ?_, hraised⟩
  · obtain hsame | ⟨-, property, isNull, herror⟩ := halike
    · obtain ⟨hvalue, hstate⟩ := Prod.mk.inj hsame
      exact ⟨hvalue.trans hv, hstate⟩
    · cases hv.symm.trans herror
  · obtain hsame | ⟨hnone, property, isNull, herror⟩ := halike
    · obtain ⟨hvalue, hstate⟩ := Prod.mk.inj hsame
      exact .inl ⟨hvalue.trans he, hstate⟩
    · exact .inr ⟨hnone, property, isNull, Except.error.inj (he.symm.trans herror)⟩

end Sandbox

end SceneTemplates
