import Mathlib.Data.List.Forall2
import Mathlib.Tactic.Common
import SceneTemplates.Expression.Error

/-!
# Steps and outcomes

Compiling, evaluating and resolving are steps over a state that may end with an error and keep the
state they reached. A sequence of two steps succeeds exactly if the first one does and the second
one does from the state it left.
-/
namespace SceneTemplates

/-- A computation that may fail goes on exactly from a success. -/
theorem Except.bind_eq_ok {ε α β : Type} {x : Except ε α} {f : α → Except ε β} {b : β} :
    (x >>= f) = .ok b ↔ ∃ a, x = .ok a ∧ f a = .ok b := by
  cases x <;> simp [bind, Except.bind]

/-- A computation that may fail ends with the first failure. -/
theorem Except.bind_eq_error {ε α β : Type} {x : Except ε α} {f : α → Except ε β} {e : ε} :
    (x >>= f) = .error e ↔ x = .error e ∨ ∃ a, x = .ok a ∧ f a = .error e := by
  cases x <;> simp [bind, Except.bind]

@[simp] theorem Except.map_eq_ok {ε α β : Type} {x : Except ε α} {f : α → β} {b : β} :
    x.map f = .ok b ↔ ∃ a, x = .ok a ∧ f a = b := by
  cases x <;> simp [Except.map]

@[simp] theorem Except.mapError_eq_ok {ε ε' α : Type} {x : Except ε α} {f : ε → ε'} {a : α} :
    x.mapError f = .ok a ↔ x = .ok a := by
  cases x <;> simp [Except.mapError]

@[simp] theorem Except.mapError_eq_error {ε ε' α : Type} {x : Except ε α} {f : ε → ε'} {e : ε'} :
    x.mapError f = .error e ↔ ∃ e', x = .error e' ∧ f e' = e := by
  cases x <;> simp [Except.mapError]

@[simp] theorem Except.toOption_eq_some {ε α : Type} {x : Except ε α} {a : α} :
    x.toOption = some a ↔ x = .ok a := by
  cases x <;> simp [Except.toOption]

/-- A list of computations succeeds exactly if each of them does. -/
theorem Except.mapM_eq_ok {ε α β : Type} {f : α → Except ε β} {items : List α} {results : List β} :
    items.mapM f = .ok results ↔ List.Forall₂ (fun a b => f a = .ok b) items results := by
  induction items generalizing results with
  | nil =>
    rw [List.mapM_nil, List.forall₂_nil_left_iff]
    exact ⟨fun h => by cases h; rfl, fun h => by rw [h]; rfl⟩
  | cons a rest ih =>
    rw [List.mapM_cons, Except.bind_eq_ok, List.forall₂_cons_left_iff]
    constructor
    · rintro ⟨b, hb, h⟩
      obtain ⟨others, hothers, hpure⟩ := Except.bind_eq_ok.1 h
      cases hpure
      exact ⟨b, others, hb, ih.1 hothers, rfl⟩
    · rintro ⟨b, others, hb, hothers, rfl⟩
      exact ⟨b, hb, Except.bind_eq_ok.2 ⟨others, ih.2 hothers, rfl⟩⟩

namespace Step

variable {ε σ α β : Type} {m : ExceptT ε (StateM σ) α} {f : α → ExceptT ε (StateM σ) β}

@[simp] theorem run_get (s : σ) : (get : ExceptT ε (StateM σ) σ).run.run s = (.ok s, s) := rfl

@[simp] theorem run_modify (g : σ → σ) (s : σ) :
    (modify g : ExceptT ε (StateM σ) Unit).run.run s = (.ok (), g s) := rfl

/-- The second step runs from where the first one ended. -/
theorem run_bind (m : ExceptT ε (StateM σ) α) (f : α → ExceptT ε (StateM σ) β) (s : σ) :
    (m >>= f).run.run s =
      match m.run.run s with
      | (.ok a, after) => (f a).run.run after
      | (.error e, after) => (.error e, after) := by
  rw [ExceptT.run_bind, StateT.run_bind]
  rcases m.run.run s with ⟨_ | _, _⟩ <;> rfl

theorem run_bind_of_ok {s after : σ} {a : α} (h : m.run.run s = (.ok a, after)) :
    (m >>= f).run.run s = (f a).run.run after := by rw [run_bind, h]

theorem run_bind_eq_ok {s last : σ} {b : β} :
    (m >>= f).run.run s = (.ok b, last) ↔
      ∃ a after, m.run.run s = (.ok a, after) ∧ (f a).run.run after = (.ok b, last) := by
  rw [run_bind]
  rcases m.run.run s with ⟨e | a, after⟩
  · constructor
    · intro h
      cases h
    · rintro ⟨a, after', h, -⟩
      cases h
  · constructor
    · exact fun h => ⟨a, after, rfl, h⟩
    · rintro ⟨a', after', h, hf⟩
      cases h
      exact hf

/-- Every error that a step can end with has a property. -/
def FailsOnly (P : ε → Prop) (m : ExceptT ε (StateM σ) α) : Prop :=
  ∀ state e, (m.run.run state).1 = .error e → P e

namespace FailsOnly

variable {P : ε → Prop}

theorem ofPure (a : α) : FailsOnly P (pure a : ExceptT ε (StateM σ) α) := by
  intro state e h
  cases h

theorem ofThrow {e : ε} (h : P e) : FailsOnly P (throw e : ExceptT ε (StateM σ) α) := by
  intro state e' he
  cases he
  exact h

theorem andThen {m : ExceptT ε (StateM σ) α} {f : α → ExceptT ε (StateM σ) β}
    (hm : FailsOnly P m) (hf : ∀ a, FailsOnly P (f a)) : FailsOnly P (m >>= f) := by
  intro state e h
  rw [Step.run_bind] at h
  cases hr : m.run.run state with
  | mk outcome after =>
    rw [hr] at h
    cases outcome with
    | error e' =>
      cases h
      exact hm state e (by rw [hr])
    | ok a => exact hf a after e h

theorem ite {c : Prop} [Decidable c] {m n : ExceptT ε (StateM σ) α} (hm : FailsOnly P m)
    (hn : FailsOnly P n) : FailsOnly P (if c then m else n) := by
  split
  · exact hm
  · exact hn

end FailsOnly

/-- Every result that a step can end with has a property. -/
def ReturnsOnly (P : α → Prop) (m : ExceptT ε (StateM σ) α) : Prop :=
  ∀ state a, (m.run.run state).1 = .ok a → P a

namespace ReturnsOnly

variable {P : α → Prop} {Q : β → Prop}

theorem ofPure {a : α} (h : P a) : ReturnsOnly P (pure a : ExceptT ε (StateM σ) α) := by
  intro state a' ha
  cases ha
  exact h

theorem ofThrow (e : ε) : ReturnsOnly P (throw e : ExceptT ε (StateM σ) α) := by
  intro state a h
  cases h

theorem andThen (hm : ReturnsOnly P m) (hf : ∀ a, P a → ReturnsOnly Q (f a)) :
    ReturnsOnly Q (m >>= f) := by
  intro state b h
  obtain ⟨a, after, hrun, hrest⟩ := Step.run_bind_eq_ok.1 (Prod.ext h rfl)
  exact hf a (hm state a (by rw [hrun])) after b (by rw [hrest])

theorem ite {c : Prop} [Decidable c] {m n : ExceptT ε (StateM σ) α} (hm : ReturnsOnly P m)
    (hn : ReturnsOnly P n) : ReturnsOnly P (if c then m else n) := by
  split
  · exact hm
  · exact hn

end ReturnsOnly

/-- Two steps from related states end alike and leave related states. -/
def Matches (R : σ → σ → Prop) (m m' : ExceptT ε (StateM σ) α) : Prop :=
  ∀ s s', R s s' → (m.run.run s).1 = (m'.run.run s').1 ∧ R (m.run.run s).2 (m'.run.run s').2

namespace Matches

variable {R : σ → σ → Prop} {m m' : ExceptT ε (StateM σ) α} {f f' : α → ExceptT ε (StateM σ) β}

theorem ofPure (a : α) : Matches R (pure a : ExceptT ε (StateM σ) α) (pure a) :=
  fun _ _ h => ⟨rfl, h⟩

theorem ofThrow (e : ε) : Matches R (throw e : ExceptT ε (StateM σ) α) (throw e) :=
  fun _ _ h => ⟨rfl, h⟩

theorem ofModify {g g' : σ → σ} (h : ∀ s s', R s s' → R (g s) (g' s')) :
    Matches R (modify g : ExceptT ε (StateM σ) Unit) (modify g') :=
  fun s s' hs => ⟨rfl, h s s' hs⟩

/-- Steps that begin with a look at the state. -/
theorem ofGet {g g' : σ → ExceptT ε (StateM σ) α}
    (h : ∀ s s', R s s' → ((g s).run.run s).1 = ((g' s').run.run s').1 ∧
      R ((g s).run.run s).2 ((g' s').run.run s').2) :
    Matches R (get >>= g) (get >>= g') := by
  intro s s' hs
  rw [run_bind_of_ok (run_get s), run_bind_of_ok (run_get s')]
  exact h s s' hs

theorem andThen (hm : Matches R m m') (hf : ∀ a, Matches R (f a) (f' a)) :
    Matches R (m >>= f) (m' >>= f') := by
  intro s s' hs
  obtain ⟨houtcome, hafter⟩ := hm s s' hs
  rw [run_bind, run_bind]
  rcases hrun : m.run.run s with ⟨outcome, after⟩
  rcases hrun' : m'.run.run s' with ⟨outcome', after'⟩
  rw [hrun, hrun'] at houtcome hafter
  dsimp only at houtcome hafter
  subst houtcome
  cases outcome with
  | error e => exact ⟨rfl, hafter⟩
  | ok a => exact hf a after after' hafter

end Matches

end Step

end SceneTemplates
