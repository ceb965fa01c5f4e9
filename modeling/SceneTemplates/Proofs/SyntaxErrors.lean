import SceneTemplates.Proofs.Steps
import SceneTemplates.Proofs.VisitedNodes
import SceneTemplates.Proofs.FixedData

/-!
# Errors of an examination

Before anything is evaluated a source can be refused for its syntax, for a bound that it exceeds, or
for a part that is not allowed. What an evaluation may complain about besides, such as members of
null, is not among these errors.
-/
namespace SceneTemplates

/-- Every error that a computation can end with has a property. -/
def FailsWith {ε α : Type} (P : ε → Prop) (outcome : Except ε α) : Prop :=
  ∀ e, outcome = .error e → P e

namespace FailsWith

variable {ε α β : Type} {P : ε → Prop} {outcome : Except ε α}

theorem ofOk (a : α) : FailsWith P (.ok a : Except ε α) := by
  intro e h
  cases h

theorem ofError {e : ε} (h : P e) : FailsWith P (.error e : Except ε α) := by
  intro e' he
  cases he
  exact h

theorem bind {f : α → Except ε β} (h : FailsWith P outcome) (hf : ∀ a, FailsWith P (f a)) :
    FailsWith P (outcome >>= f) := by
  cases outcome with
  | error e => exact ofError (h e rfl)
  | ok a => exact hf a

theorem mono {Q : ε → Prop} (h : FailsWith P outcome) (hPQ : ∀ e, P e → Q e) :
    FailsWith Q outcome := fun e he => hPQ e (h e he)

end FailsWith

/-- A cause that the text of the source is to blame for: its syntax, or too many nestings. -/
def ExpressionCause.IsSyntactic (cause : ExpressionCause) : Prop :=
  cause.kind = .parseError ∨ cause.kind = .tooDeep

/-! ## Tokens and trees -/

open ExpressionCause (IsSyntactic)

theorem Lexer.tokensFrom_fails (fuel position : Nat) (source : Text) :
    FailsWith IsSyntactic (tokensFrom fuel position source) := by
  induction fuel generalizing position source with
  | zero => cases source <;> exact FailsWith.ofOk _
  | succ fuel ih =>
    cases source with
    | nil => exact FailsWith.ofOk _
    | cons c t =>
      rw [tokensFrom]
      split
      · exact ih _ _
      · split
        · exact FailsWith.ofError (.inl rfl)
        · exact (ih _ _).bind fun rest => FailsWith.ofOk _

namespace Parser

variable {α : Type}

/-- Whatever the tokens, a parser can only fail for the syntax. -/
def FailsOnSyntax (p : Parser α) : Prop := ∀ tokens, FailsWith IsSyntactic (p tokens)

theorem expect_fails (s : Symbol) (what : Expectation) (tokens : List Token) :
    FailsWith IsSyntactic (expect s what tokens) := by
  unfold expect
  split
  · split
    · exact FailsWith.ofOk _
    · exact FailsWith.ofError (.inl rfl)
  · exact FailsWith.ofError (.inl rfl)

theorem memberName_fails : FailsOnSyntax memberName := by
  intro tokens
  unfold memberName
  split
  · split
    · exact FailsWith.ofOk _
    · exact FailsWith.ofError (.inl rfl)
  · exact FailsWith.ofError (.inl rfl)

section Items

variable {item : Parser α} (hitem : FailsOnSyntax item)

include hitem

theorem moreItems_fails (fuel : Nat) : FailsOnSyntax (moreItems item fuel) := by
  induction fuel with
  | zero => exact fun tokens => FailsWith.ofOk _
  | succ fuel ih =>
    intro tokens
    rw [moreItems]
    split
    · exact (hitem _).bind fun r => (ih _).bind fun r' => FailsWith.ofOk _
    · exact FailsWith.ofOk _

theorem moreClosedItems_fails (close : Symbol) (fuel : Nat) :
    FailsOnSyntax (moreClosedItems item close fuel) := by
  induction fuel with
  | zero => exact fun tokens => FailsWith.ofOk _
  | succ fuel ih =>
    intro tokens
    rw [moreClosedItems]
    split
    · split
      · exact FailsWith.ofOk _
      · exact (hitem _).bind fun r => (ih _).bind fun r' => FailsWith.ofOk _
    · exact FailsWith.ofOk _

theorem closedItems_fails (close : Symbol) (what : Expectation) (trailing : Bool) :
    FailsOnSyntax (closedItems item close what trailing) := by
  intro tokens
  unfold closedItems
  split
  · exact FailsWith.ofOk _
  · refine (hitem _).bind fun r => ?_
    have hclose : ∀ others : List α × List Token, FailsWith IsSyntactic (do
        return (r.1 :: others.1, ← expect close what others.2)) := fun others =>
      (expect_fails close what _).bind fun rest => FailsWith.ofOk _
    cases trailing with
    | true => exact (moreClosedItems_fails hitem close _ _).bind hclose
    | false => exact (moreItems_fails hitem _ _).bind hclose

end Items

section Expressions

variable {expression group inner operand : Parser Expr} (hexpression : FailsOnSyntax expression)

include hexpression

theorem sequence_fails : FailsOnSyntax (sequence expression) := fun _ =>
  (hexpression _).bind fun _ => (moreItems_fails hexpression _ _).bind fun _ => FailsWith.ofOk _

theorem element_fails : FailsOnSyntax (element expression) := by
  intro tokens
  unfold element
  split
  · exact (hexpression _).bind fun r => FailsWith.ofOk _
  · exact hexpression _

theorem arguments_fails : FailsOnSyntax (arguments expression) :=
  closedItems_fails (element_fails hexpression) _ _ _

theorem propertyValue_fails (key : PropertyKey) : FailsOnSyntax (propertyValue expression key) :=
  fun tokens => (expect_fails .colon .colonAfterKey tokens).bind fun _ =>
    (hexpression _).bind fun _ => FailsWith.ofOk _

theorem property_fails : FailsOnSyntax (property expression) := by
  intro tokens
  unfold property
  split
  · exact (hexpression _).bind fun r => FailsWith.ofOk _
  · exact (hexpression _).bind fun r => (expect_fails _ _ _).bind fun rest =>
      propertyValue_fails hexpression _ _
  · exact propertyValue_fails hexpression _ _
  · exact propertyValue_fails hexpression _ _
  · split
    · exact propertyValue_fails hexpression _ _
    · exact FailsWith.ofOk _
  · exact FailsWith.ofError (.inl rfl)

theorem suffixes_fails (fuel : Nat) (e : Expr) : FailsOnSyntax (suffixes expression fuel e) := by
  induction fuel generalizing e with
  | zero => exact fun tokens => FailsWith.ofOk _
  | succ fuel ih =>
    intro tokens
    rw [suffixes]
    split
    · exact (memberName_fails _).bind fun r => ih _ _
    · split
      · exact (sequence_fails hexpression _).bind fun r =>
          (expect_fails .closeBracket .closeIndex _).bind fun rest => ih _ _
      · split
        · exact (arguments_fails hexpression _).bind fun r => ih _ _
        · exact FailsWith.ofOk _

omit hexpression in
theorem members_fails (fuel : Nat) (e : Expr) : FailsOnSyntax (members fuel e) := by
  induction fuel generalizing e with
  | zero => exact fun tokens => FailsWith.ofOk _
  | succ fuel ih =>
    intro tokens
    rw [members]
    split
    · exact (memberName_fails _).bind fun r => ih _ _
    · exact FailsWith.ofOk _

variable (hgroup : FailsOnSyntax group)

include hgroup

theorem primary_fails : FailsOnSyntax (primary expression group) := by
  intro tokens
  unfold primary
  split
  case h_7 => exact (hgroup _).bind fun r => (expect_fails _ _ _).bind fun rest => FailsWith.ofOk _
  case h_8 =>
    exact (closedItems_fails (element_fails hexpression) _ _ _ _).bind fun r => FailsWith.ofOk _
  case h_9 =>
    exact (closedItems_fails (property_fails hexpression) _ _ _ _).bind fun r => FailsWith.ofOk _
  all_goals first | exact FailsWith.ofOk _ | exact FailsWith.ofError (.inl rfl)

theorem construction_fails : FailsOnSyntax (construction expression group) := by
  intro tokens
  refine (primary_fails hexpression hgroup tokens).bind fun r => ?_
  refine (members_fails r.2.length r.1 r.2).bind fun r' => ?_
  dsimp only
  split
  · exact (arguments_fails hexpression _).bind fun r => FailsWith.ofOk _
  · exact FailsWith.ofOk _

theorem suffixed_fails : FailsOnSyntax (suffixed expression group) := by
  intro tokens
  unfold suffixed
  split
  · exact (construction_fails hexpression hgroup _).bind fun r => suffixes_fails hexpression _ _ _
  · exact (primary_fails hexpression hgroup _).bind fun r => suffixes_fails hexpression _ _ _

theorem operand_fails (hinner : FailsOnSyntax inner) :
    FailsOnSyntax (Parser.operand expression group inner) := by
  have hsuffixed := suffixed_fails hexpression hgroup
  intro tokens
  unfold Parser.operand
  split
  · exact hsuffixed _
  · split
    · exact (hinner _).bind fun r => FailsWith.ofOk _
    · split
      · exact (hinner _).bind fun r => FailsWith.ofOk _
      · refine (hsuffixed _).bind fun r => ?_
        dsimp only
        split <;> exact FailsWith.ofOk _

omit hexpression hgroup

theorem moreOperands_fails (hoperand : FailsOnSyntax operand) (fuel : Nat) :
    FailsOnSyntax (moreOperands operand fuel) := by
  induction fuel with
  | zero => exact fun tokens => FailsWith.ofOk _
  | succ fuel ih =>
    intro tokens
    cases tokens with
    | nil => exact FailsWith.ofOk _
    | cons token following =>
      rw [moreOperands]
      split
      · exact FailsWith.ofOk _
      · exact (hoperand _).bind fun r => (ih _).bind fun r' => FailsWith.ofOk _

theorem operators_fails (hoperand : FailsOnSyntax operand) : FailsOnSyntax (operators operand) :=
  fun _ => (hoperand _).bind fun _ =>
    (moreOperands_fails hoperand _ _).bind fun _ => FailsWith.ofOk _

include hexpression

theorem conditional_fails (hoperand : FailsOnSyntax operand) :
    FailsOnSyntax (conditional expression operand) := by
  intro tokens
  refine (operators_fails hoperand tokens).bind fun r => ?_
  dsimp only
  split
  · exact (hexpression _).bind fun r => (expect_fails .colon .colonInConditional _).bind fun rest =>
      (hexpression _).bind fun r => FailsWith.ofOk _
  · exact FailsWith.ofOk _

theorem assignment_fails (hoperand : FailsOnSyntax operand) :
    FailsOnSyntax (assignment expression operand) := by
  intro tokens
  refine (conditional_fails hexpression hoperand tokens).bind fun r => ?_
  dsimp only
  split
  · exact (hexpression _).bind fun r => FailsWith.ofOk _
  · exact FailsWith.ofOk _

end Expressions

theorem Level.ofNat_fails (n : Nat) :
    FailsOnSyntax (Level.ofNat n).expression ∧ FailsOnSyntax (Level.ofNat n).operand := by
  induction n with
  | zero => exact ⟨fun _ => FailsWith.ofError (.inr rfl), fun _ => FailsWith.ofError (.inr rfl)⟩
  | succ n ih =>
    obtain ⟨hexpression, hoperand⟩ := ih
    have hlevel := assignment_fails hexpression hoperand
    exact ⟨hlevel, operand_fails hlevel (sequence_fails hexpression) hoperand⟩

theorem whole_fails (maxNesting : Int) (tokens : List Token) :
    FailsWith IsSyntactic (whole maxNesting tokens) := by
  unfold whole
  split
  · exact FailsWith.ofError (.inl rfl)
  · exact FailsWith.ofError (.inl rfl)
  · refine (sequence_fails (Level.ofNat_fails (maxNesting.toNat + 1)).1 tokens).bind fun r => ?_
    dsimp only
    split
    · exact FailsWith.ofOk _
    · exact FailsWith.ofOk _
    · exact FailsWith.ofError (.inl rfl)

end Parser

/-! ## Members of null -/

namespace ExpressionCause

/-- A cause that has nothing to do with members of null. -/
def SparesMembers (cause : ExpressionCause) : Prop := cause.kind ≠ .nullDereference

theorem IsSyntactic.sparesMembers {cause : ExpressionCause} (h : cause.IsSyntactic) :
    cause.SparesMembers := by
  obtain h | h := h <;> simp [SparesMembers, h]

end ExpressionCause

open ExpressionCause (SparesMembers)

/-- What is wrong with a node by itself is not a member of null. -/
theorem Expr.sparesMembers_of_fault {env : Environment} {e : Expr} {cause : ExpressionCause}
    (h : e.fault env = some cause) : cause.SparesMembers := by
  unfold fault at h
  split at h
  · split at h
    · cases h
    · cases h
      simp [SparesMembers, ExpressionCause.kind]
  · unfold syntaxFault at h
    split at h
    all_goals first | (split at h <;> cases h) | cases h
    all_goals simp [SparesMembers, ExpressionCause.kind]

theorem Validation.scan_fails {env : Environment} {options : SandboxOptions} (count : Nat)
    (nodes : List (Nat × Expr)) : FailsWith SparesMembers (scan env options count nodes) := by
  induction nodes generalizing count with
  | nil => exact FailsWith.ofOk _
  | cons node rest ih =>
    have henter : FailsWith SparesMembers (enter options node.1 count) := by
      unfold enter
      split
      · exact FailsWith.ofError (by simp [SparesMembers, ExpressionCause.kind])
      · split
        · exact FailsWith.ofError (by simp [SparesMembers, ExpressionCause.kind])
        · exact FailsWith.ofOk _
    refine henter.bind fun count => ?_
    split
    · next cause hfault => exact FailsWith.ofError (Expr.sparesMembers_of_fault hfault)
    · exact ih count

/-- A source is never refused for a member of null. -/
theorem Sandbox.examined_fails (env : Environment) (options : SandboxOptions) (source : Text) :
    FailsWith SparesMembers (examined env options source) := by
  have hvalidate : ∀ tree, FailsWith SparesMembers (validate env options tree) := by
    intro tree
    rw [validate, Validation.visit_eq_scan]
    exact (Validation.scan_fails 0 (tree.nodes 0)).bind fun _ => FailsWith.ofOk _
  have htokens : FailsWith SparesMembers (tokenize source) :=
    (Lexer.tokensFrom_fails _ _ source).mono fun _ h => h.sparesMembers
  have hwhole : ∀ tokens, FailsWith SparesMembers (Parser.whole options.maxDepth tokens) :=
    fun tokens => (Parser.whole_fails _ tokens).mono fun _ h => h.sparesMembers
  have htree : FailsWith SparesMembers (do
      let tokens ← tokenize source
      let tree ← Parser.whole options.maxDepth tokens
      let _ ← validate env options tree
      return tree) :=
    htokens.bind fun tokens => (hwhole tokens).bind fun tree =>
      (hvalidate tree).bind fun _ => FailsWith.ofOk tree
  unfold examined
  split
  · exact FailsWith.ofError (by simp [SparesMembers, ExpressionCause.kind])
  · exact htree

end SceneTemplates
