import SceneTemplates.Proofs.CheckedTrees
import SceneTemplates.Proofs.FixedData
import SceneTemplates.Proofs.GuardParsing

/-!
# Acceptance of guards

A guard that a sandbox accepts is put together from tests that it accepts alone, unless one of them
closes a parenthesis that it did not open. Nothing keeps such a test out: `!(a) || (b)` is accepted
as the guard that turns `a) || (b` around, which is no expression.
-/
namespace SceneTemplates

open TokenKind (openAfter)

/-- Whether a source can be cut into tokens and closes no parenthesis that it did not open. -/
def staysInside (source : Text) : Bool :=
  match tokenize source with
  | .ok tokens => (openAfter 0 (kinds tokens).dropLast).isSome
  | .error _ => false

theorem exists_row {source : Text} (h : staysInside source = true) :
    ∃ row, Lexer.Reads source row ∧ (openAfter 0 row).isSome := by
  unfold staysInside at h
  cases ht : tokenize source with
  | error cause =>
    rw [ht] at h
    cases h
  | ok tokens =>
    rw [ht] at h
    obtain ⟨row, hrow, hkinds⟩ := exists_reads ht
    refine ⟨row, hrow, ?_⟩
    dsimp only at h
    rw [hkinds, List.dropLast_concat] at h
    exact h

theorem staysInside_of_parse {source : Text} {limit : Int} {e : Expr}
    (h : parse source limit = .ok e) : staysInside source = true := by
  obtain ⟨tokens, htokens, hwhole⟩ := parse_eq_ok.1 h
  obtain ⟨row, hrow, hkinds⟩ := exists_reads htokens
  obtain ⟨hopen, -⟩ := Parser.whole_taken hwhole hkinds hrow.finish_not_mem
  unfold staysInside
  rw [htokens]
  dsimp only
  rw [hkinds, List.dropLast_concat, hopen]
  rfl

namespace Sandbox

variable {s : Sandbox} {source test cond : Text} {tree : Expr}

/-- A sandbox accepts a source if compiling it succeeds. -/
def Accepts (s : Sandbox) (source : Text) : Prop := ∃ compiled, s.compile source = .ok compiled

theorem accepts_iff (hc : s.Coherent) : s.Accepts source ↔ ∃ tree, s.examine source = .ok tree := by
  rw [← compile_of_coherent hc]
  unfold Accepts
  cases s.compile source with
  | error e =>
    constructor
    · rintro ⟨compiled, h⟩
      cases h
    · rintro ⟨tree, h⟩
      cases h
  | ok compiled => exact ⟨fun _ => ⟨compiled.1, rfl⟩, fun _ => ⟨compiled, rfl⟩⟩

theorem staysInside_of_accepts (hc : s.Coherent) (h : s.Accepts source) :
    staysInside source = true := by
  obtain ⟨tree, htree⟩ := (accepts_iff hc).1 h
  obtain ⟨-, hparse, -⟩ := examine_eq_ok.1 htree
  exact staysInside_of_parse hparse

/-- A tree that passed below another one makes its own source an accepted one, if that is not
longer. -/
theorem examine_of_part {whole : Text} {depth count last : Nat}
    (hlen : source.length ≤ whole.length) (hwhole : ¬ s.options.maxLength < whole.length)
    (hparse : parse source s.options.maxDepth = .ok tree)
    (hvisit : Validation.visit s.environment s.options depth count tree = .ok last) :
    s.examine source = .ok tree := by
  obtain ⟨last', hlast, -⟩ := Validation.visit_mono tree hvisit (Nat.zero_le _) (Nat.zero_le _)
  refine examine_eq_ok.2 ⟨by omega, hparse, ?_⟩
  unfold validate
  rw [hlast]
  rfl

theorem exists_visit (h : s.examine source = .ok tree) :
    ∃ last, Validation.visit s.environment s.options 0 0 tree = .ok last := by
  obtain ⟨-, -, hv⟩ := examine_eq_ok.1 h
  unfold validate at hv
  obtain ⟨last, hlast, -⟩ := Except.map_eq_ok.1 hv
  exact ⟨last, hlast⟩

@[simp] theorem length_conjoined (test cond : Text) :
    (Guard.conjoined test cond).length = test.length + cond.length + 8 := by
  rw [Guard.conjoined_eq]
  simp only [List.length_cons, List.length_append, List.length_nil]
  omega

@[simp] theorem length_negated (test : Text) : (Guard.negated test).length = test.length + 3 := by
  rw [Guard.negated_eq]
  simp only [List.length_cons, List.length_append, List.length_nil]

/-- What a guard of two tests is made of, if neither closes a parenthesis that it did not open. -/
theorem examine_conjoined (h : s.examine (Guard.conjoined test cond) = .ok tree)
    (ht : staysInside test = true) (hc : staysInside cond = true) :
    ∃ left right, tree = .binary .and left right ∧ s.examine test = .ok left ∧
      s.examine cond = .ok right := by
  obtain ⟨row, hrow, hopen⟩ := exists_row ht
  obtain ⟨row', hrow', hopen'⟩ := exists_row hc
  obtain ⟨hlength, hparse, -⟩ := examine_eq_ok.1 h
  obtain ⟨last, hvisit⟩ := exists_visit h
  obtain ⟨left, right, rfl, hparts⟩ := Guard.parse_conjoined hrow hrow' hopen hopen' hparse
  obtain ⟨hleft, hright⟩ := hparts s.options.maxDepth (by omega)
  obtain ⟨count, -, -, count', hvisitLeft, hvisitRight⟩ := Validation.visit_binary_eq_ok.1 hvisit
  have hlen := length_conjoined test cond
  exact ⟨left, right, rfl, examine_of_part (by omega) hlength hleft hvisitLeft,
    examine_of_part (by omega) hlength hright hvisitRight⟩

theorem examine_negated (h : s.examine (Guard.negated test) = .ok tree)
    (ht : staysInside test = true) :
    ∃ operand, tree = .unary .not operand ∧ s.examine test = .ok operand := by
  obtain ⟨row, hrow, hopen⟩ := exists_row ht
  obtain ⟨hlength, hparse, -⟩ := examine_eq_ok.1 h
  obtain ⟨last, hvisit⟩ := exists_visit h
  obtain ⟨operand, rfl, hoperand⟩ := Guard.parse_negated hrow hopen hparse
  obtain ⟨count, -, -, hvisitOperand⟩ := Validation.visit_unary_eq_ok.1 hvisit
  have hlen := length_negated test
  exact ⟨operand, rfl,
    examine_of_part (by omega) hlength (hoperand s.options.maxDepth (by omega)) hvisitOperand⟩

/-- Of an accepted guard, made as compiling a conditional makes it, the tests are accepted alone
exactly if none closes a parenthesis that it did not open, whatever was called before. -/
theorem guard_tests_accepted {σ : Type} (host : Host σ) (env : Environment)
    (options : SandboxOptions) (calls : List SandboxCall) (start : σ) (test cond : Text) :
    let s := (afterCalls host (fresh env options) start calls).1
    (s.Accepts (Component.conjunction (.text test) (.text cond)).display →
      (s.Accepts test ∧ s.Accepts cond ↔ staysInside test = true ∧ staysInside cond = true)) ∧
    (s.Accepts (Component.negation (.text test)).display →
      (s.Accepts test ↔ staysInside test = true)) := by
  intro s
  have hcoherent : s.Coherent :=
    (reaches_afterCalls host calls (fresh env options) start).coherent (coherent_fresh env options)
  constructor
  · intro h
    obtain ⟨tree, htree⟩ := (accepts_iff hcoherent).1 h
    constructor
    · rintro ⟨ht, hc⟩
      exact ⟨staysInside_of_accepts hcoherent ht, staysInside_of_accepts hcoherent hc⟩
    · rintro ⟨ht, hc⟩
      obtain ⟨left, right, -, hleft, hright⟩ := examine_conjoined htree ht hc
      exact ⟨(accepts_iff hcoherent).2 ⟨left, hleft⟩, (accepts_iff hcoherent).2 ⟨right, hright⟩⟩
  · intro h
    obtain ⟨tree, htree⟩ := (accepts_iff hcoherent).1 h
    constructor
    · exact staysInside_of_accepts hcoherent
    · intro ht
      obtain ⟨operand, -, hoperand⟩ := examine_negated htree ht
      exact (accepts_iff hcoherent).2 ⟨operand, hoperand⟩

/-- Two names are accepted as a guard, and so is each of them. -/
theorem guard_tests_accepted_names :
    let s := fresh ⟨[], []⟩ ⟨20, 5, 5, true⟩
    (s.Accepts "a" ∧ s.Accepts "b") ∧ s.Accepts "a" := by
  have h := guard_tests_accepted Host.none ⟨[], []⟩ ⟨20, 5, 5, true⟩ [] () "a" "b"
  exact ⟨(h.1 ⟨_, rfl⟩).2 ⟨rfl, rfl⟩, (h.2 ⟨_, rfl⟩).2 rfl⟩

/-- A test with a parenthesis too many at its front is accepted in both guards, and not alone. -/
theorem guard_of_refused_test :
    let s := fresh ⟨[], []⟩ ⟨30, 5, 9, true⟩
    let test : Text := "a) || (b"
    s.Accepts (Component.conjunction (.text test) (.text "c")).display ∧
      s.Accepts (Component.negation (.text test)).display ∧ ¬ s.Accepts test := by
  refine ⟨⟨_, rfl⟩, ⟨_, rfl⟩, ?_⟩
  rintro ⟨compiled, h⟩
  have hrefused : (fresh ⟨[], []⟩ ⟨30, 5, 9, true⟩).compile "a) || (b" =
      .error (.inSource "a) || (b" (.unexpectedToken ⟨.symbol .closeParen, 1⟩)) := rfl
  rw [hrefused] at h
  cases h

end Sandbox

end SceneTemplates
