import Mathlib.Tactic.Common
import SceneTemplates.Expression.Token

/-!
# Parentheses in a row of tokens

A row of tokens is read for its round parentheses alone: how many are open behind it, if none is
closed that was not opened. The end of a source stands in no such row.
-/
namespace SceneTemplates

/-- What tokens are, without their positions. -/
def kinds (tokens : List Token) : List TokenKind := tokens.map Token.kind

namespace TokenKind

/-- The parentheses open behind a row, given those open before it. There is no number if one is
closed that is not open. -/
def openAfter : Nat → List TokenKind → Option Nat
  | d, [] => some d
  | d, .symbol .openParen :: row => openAfter (d + 1) row
  | 0, .symbol .closeParen :: _ => none
  | d + 1, .symbol .closeParen :: row => openAfter d row
  | _, .finish :: _ => none
  | d, _ :: row => openAfter d row

/-- A token that neither opens nor closes. -/
def isPlain (k : TokenKind) : Prop :=
  k ≠ .symbol .openParen ∧ k ≠ .symbol .closeParen ∧ k ≠ .finish

instance (k : TokenKind) : Decidable k.isPlain := by
  unfold isPlain
  infer_instance

@[simp] theorem openAfter_open (d : Nat) (row : List TokenKind) :
    openAfter d (.symbol .openParen :: row) = openAfter (d + 1) row := by
  rw [openAfter]

@[simp] theorem openAfter_close (d : Nat) (row : List TokenKind) :
    openAfter (d + 1) (.symbol .closeParen :: row) = openAfter d row := by
  rw [openAfter]

@[simp] theorem openAfter_plain {k : TokenKind} (hk : k.isPlain) (d : Nat) (row : List TokenKind) :
    openAfter d (k :: row) = openAfter d row := by
  obtain ⟨ho, hc, hf⟩ := hk
  rw [openAfter] <;> simp [ho, hc, hf]

@[simp] theorem openAfter_append (d : Nat) (first second : List TokenKind) :
    openAfter d (first ++ second) = (openAfter d first).bind fun d => openAfter d second := by
  induction first generalizing d with
  | nil => rfl
  | cons k row ih =>
    rw [List.cons_append]
    by_cases hk : k.isPlain
    · simp [hk, ih]
    · by_cases ho : k = .symbol .openParen
      · subst ho
        simp [ih]
      · by_cases hc : k = .symbol .closeParen
        · subst hc
          cases d with
          | zero => rfl
          | succ d => rw [openAfter_close, openAfter_close, ih]
        · have hf : k = .finish := by
            by_contra hf
            exact hk ⟨ho, hc, hf⟩
          subst hf
          cases d <;> rfl

/-- More open parentheses around a row stay open behind it. -/
theorem openAfter_add {d e : Nat} {row : List TokenKind} (h : openAfter d row = some e)
    (n : Nat) : openAfter (d + n) row = some (e + n) := by
  induction row generalizing d with
  | nil =>
    cases h
    rfl
  | cons k row ih =>
    by_cases hk : k.isPlain
    · rw [openAfter_plain hk] at h ⊢
      exact ih h
    · by_cases ho : k = .symbol .openParen
      · subst ho
        rw [openAfter_open] at h ⊢
        have hd : d + n + 1 = d + 1 + n := by omega
        rw [hd]
        exact ih h
      · by_cases hc : k = .symbol .closeParen
        · subst hc
          cases d with
          | zero => cases h
          | succ d =>
            rw [openAfter_close] at h
            have hd : d + 1 + n = d + n + 1 := by omega
            rw [hd, openAfter_close]
            exact ih h
        · have hf : k = .finish := by
            by_contra hf
            exact hk ⟨ho, hc, hf⟩
          subst hf
          cases d <;> cases h

/-- Two rows that open nothing and are closed at the same place are the same. -/
theorem split_unique {u v r s : List TokenKind} (hu : openAfter 0 u = some 0)
    (hv : openAfter 0 v = some 0)
    (h : u ++ .symbol .closeParen :: r = v ++ .symbol .closeParen :: s) : u = v := by
  have hfirst : ∀ {a b c : List TokenKind}, openAfter 0 a = some 0 → openAfter 0 b = some 0 →
      b = a ++ c → (∀ k, c.head? = some k → k = .symbol .closeParen) → c = [] := by
    intro a b c ha hb hab hc
    cases c with
    | nil => rfl
    | cons k row =>
      have hk : k = .symbol .closeParen := hc k rfl
      subst hk
      rw [hab, openAfter_append, ha] at hb
      cases hb
  obtain ⟨c, hc, hs⟩ | ⟨c, hc, hs⟩ := List.append_eq_append_iff.1 h
  · have hnil := hfirst hu hv hc (by
      intro k hk
      cases c with
      | nil => cases hk
      | cons k' row =>
        cases hk
        exact (List.cons.inj hs).1.symm)
    rw [hc, hnil, List.append_nil]
  · have hnil := hfirst hv hu hc (by
      intro k hk
      cases c with
      | nil => cases hk
      | cons k' row =>
        cases hk
        exact (List.cons.inj hs).1.symm)
    rw [hc, hnil, List.append_nil]

end TokenKind

end SceneTemplates
