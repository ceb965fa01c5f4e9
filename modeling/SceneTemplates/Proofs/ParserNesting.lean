import SceneTemplates.Expression.Parser
import SceneTemplates.Proofs.Steps

/-!
# Nesting and the parser

With more nestings left a parser gives the same, except that it may go on where it was too deep
before.
-/
namespace SceneTemplates

/-- The second outcome is the first one, unless that is an expression too deep. -/
def Within {α : Type} (first second : Except ExpressionCause α) : Prop :=
  first = .error .tooDeep ∨ first = second

namespace Within

variable {α β : Type} {first second third : Except ExpressionCause α}

theorem refl (outcome : Except ExpressionCause α) : Within outcome outcome := .inr rfl

theorem trans (h : Within first second) (h' : Within second third) : Within first third := by
  obtain h | rfl := h
  · exact .inl h
  · exact h'

theorem bind {f g : α → Except ExpressionCause β} (h : Within first second)
    (hfg : ∀ a, Within (f a) (g a)) : Within (first >>= f) (second >>= g) := by
  obtain rfl | rfl := h
  · exact .inl rfl
  · cases first with
    | error cause => exact .inr rfl
    | ok a => exact hfg a

/-- A success with fewer nestings is one with more. -/
theorem ok {a : α} (h : Within first second) (hok : first = .ok a) : second = .ok a := by
  obtain h | rfl := h
  · rw [hok] at h
    cases h
  · exact hok

end Within

namespace Parser

variable {α : Type}

/-- The second parser gives what the first one does, unless that is too deep. -/
def Extends (p q : Parser α) : Prop := ∀ tokens, Within (p tokens) (q tokens)

section Items

variable {item item' : Parser α} (hitem : Extends item item')

include hitem

theorem moreItems_extends (fuel : Nat) : Extends (moreItems item fuel) (moreItems item' fuel) := by
  induction fuel with
  | zero => exact fun tokens => Within.refl _
  | succ fuel ih =>
    intro tokens
    rw [moreItems, moreItems]
    split
    · exact (hitem _).bind fun r => (ih _).bind fun r' => Within.refl _
    · exact Within.refl _

theorem moreClosedItems_extends (close : Symbol) (fuel : Nat) :
    Extends (moreClosedItems item close fuel) (moreClosedItems item' close fuel) := by
  induction fuel with
  | zero => exact fun tokens => Within.refl _
  | succ fuel ih =>
    intro tokens
    rw [moreClosedItems, moreClosedItems]
    split
    · split
      · exact Within.refl _
      · exact (hitem _).bind fun r => (ih _).bind fun r' => Within.refl _
    · exact Within.refl _

theorem closedItems_extends (close : Symbol) (what : Expectation) (trailing : Bool) :
    Extends (closedItems item close what trailing) (closedItems item' close what trailing) := by
  intro tokens
  unfold closedItems
  split
  · exact Within.refl _
  · refine (hitem _).bind fun r => ?_
    dsimp only
    cases trailing with
    | true =>
      exact (moreClosedItems_extends hitem close _ _).bind fun r' => Within.refl _
    | false => exact (moreItems_extends hitem _ _).bind fun r' => Within.refl _

end Items

section Expressions

variable {expression expression' group group' inner inner' operand operand' : Parser Expr}
  (hexpression : Extends expression expression')

include hexpression

theorem sequence_extends : Extends (sequence expression) (sequence expression') := by
  intro tokens
  exact (hexpression _).bind fun r =>
    (moreItems_extends hexpression _ _).bind fun r' => Within.refl _

theorem element_extends : Extends (element expression) (element expression') := by
  intro tokens
  unfold element
  split
  · exact (hexpression _).bind fun r => Within.refl _
  · exact hexpression _

theorem arguments_extends : Extends (arguments expression) (arguments expression') :=
  closedItems_extends (element_extends hexpression) _ _ _

theorem propertyValue_extends (key : PropertyKey) :
    Extends (propertyValue expression key) (propertyValue expression' key) := by
  intro tokens
  exact (Within.refl (expect .colon .colonAfterKey tokens)).bind fun rest =>
    (hexpression _).bind fun r => Within.refl _

theorem property_extends : Extends (property expression) (property expression') := by
  intro tokens
  unfold property
  split
  · exact (hexpression _).bind fun r => Within.refl _
  · exact (hexpression _).bind fun r =>
      (Within.refl _).bind fun rest => propertyValue_extends hexpression _ _
  · exact propertyValue_extends hexpression _ _
  · exact propertyValue_extends hexpression _ _
  · split
    · exact propertyValue_extends hexpression _ _
    · exact Within.refl _
  · exact Within.refl _

theorem suffixes_extends (fuel : Nat) (e : Expr) :
    Extends (suffixes expression fuel e) (suffixes expression' fuel e) := by
  induction fuel generalizing e with
  | zero => exact fun tokens => Within.refl _
  | succ fuel ih =>
    intro tokens
    rw [suffixes, suffixes]
    split
    · exact (Within.refl (memberName tokens.tail)).bind fun r => ih _ _
    · split
      · exact (sequence_extends hexpression _).bind fun r =>
          (Within.refl (expect .closeBracket .closeIndex _)).bind fun rest => ih _ _
      · split
        · exact (arguments_extends hexpression _).bind fun r => ih _ _
        · exact Within.refl _

variable (hgroup : Extends group group')

include hgroup

theorem primary_extends : Extends (primary expression group) (primary expression' group') := by
  intro tokens
  unfold primary
  split
  case h_7 => exact (hgroup _).bind fun r => Within.refl _
  case h_8 =>
    exact (closedItems_extends (element_extends hexpression) _ _ _ _).bind fun r => Within.refl _
  case h_9 =>
    exact (closedItems_extends (property_extends hexpression) _ _ _ _).bind fun r => Within.refl _
  all_goals exact Within.refl _

theorem construction_extends :
    Extends (construction expression group) (construction expression' group') := by
  intro tokens
  refine (primary_extends hexpression hgroup tokens).bind fun r => ?_
  refine (Within.refl (members r.2.length r.1 r.2)).bind fun r' => ?_
  dsimp only
  split
  · exact (arguments_extends hexpression _).bind fun r => Within.refl _
  · exact Within.refl _

theorem suffixed_extends : Extends (suffixed expression group) (suffixed expression' group') := by
  intro tokens
  unfold suffixed
  split
  · exact (construction_extends hexpression hgroup _).bind fun r =>
      suffixes_extends hexpression _ _ _
  · exact (primary_extends hexpression hgroup _).bind fun r => suffixes_extends hexpression _ _ _

theorem operand_extends (hinner : Extends inner inner') :
    Extends (Parser.operand expression group inner) (Parser.operand expression' group' inner') := by
  intro tokens
  unfold Parser.operand
  split
  · exact suffixed_extends hexpression hgroup _
  · split
    · exact (hinner _).bind fun r => Within.refl _
    · split
      · exact (hinner _).bind fun r => Within.refl _
      · exact (suffixed_extends hexpression hgroup _).bind fun r => Within.refl _

omit hexpression hgroup

theorem moreOperands_extends (hoperand : Extends operand operand') (fuel : Nat) :
    Extends (moreOperands operand fuel) (moreOperands operand' fuel) := by
  induction fuel with
  | zero => exact fun tokens => Within.refl _
  | succ fuel ih =>
    intro tokens
    cases tokens with
    | nil => exact Within.refl _
    | cons token following =>
      rw [moreOperands, moreOperands]
      split
      · exact Within.refl _
      · exact (hoperand _).bind fun r => (ih _).bind fun r' => Within.refl _

theorem operators_extends (hoperand : Extends operand operand') :
    Extends (operators operand) (operators operand') := by
  intro tokens
  exact (hoperand _).bind fun r => (moreOperands_extends hoperand _ _).bind fun r' => Within.refl _

include hexpression

theorem conditional_extends (hoperand : Extends operand operand') :
    Extends (conditional expression operand) (conditional expression' operand') := by
  intro tokens
  refine (operators_extends hoperand tokens).bind fun r => ?_
  dsimp only
  split
  · exact (hexpression _).bind fun r =>
      (Within.refl (expect .colon .colonInConditional _)).bind fun rest =>
        (hexpression _).bind fun r => Within.refl _
  · exact Within.refl _

theorem assignment_extends (hoperand : Extends operand operand') :
    Extends (assignment expression operand) (assignment expression' operand') := by
  intro tokens
  refine (conditional_extends hexpression hoperand tokens).bind fun r => ?_
  dsimp only
  split
  · exact (hexpression _).bind fun r => Within.refl _
  · exact Within.refl _

end Expressions

namespace Level

/-- A further level gives the same unless a nesting was missing. -/
theorem ofNat_extends_succ (n : Nat) :
    Extends (ofNat n).expression (ofNat (n + 1)).expression ∧
      Extends (ofNat n).operand (ofNat (n + 1)).operand := by
  induction n with
  | zero => exact ⟨fun tokens => .inl rfl, fun tokens => .inl rfl⟩
  | succ n ih =>
    obtain ⟨hexpression, hoperand⟩ := ih
    have hlevel := assignment_extends hexpression hoperand
    exact ⟨hlevel, operand_extends hlevel (sequence_extends hexpression) hoperand⟩

theorem ofNat_extends {n m : Nat} (h : n ≤ m) :
    Extends (ofNat n).expression (ofNat m).expression := by
  induction m with
  | zero =>
    have hn : n = 0 := by omega
    subst hn
    exact fun tokens => Within.refl _
  | succ m ih =>
    by_cases hm : n ≤ m
    · exact fun tokens => (ih hm tokens).trans ((ofNat_extends_succ m).1 tokens)
    · have hn : n = m + 1 := by omega
      subst hn
      exact fun tokens => Within.refl _

end Level

/-- With a greater bound on nestings the same tree is found, unless there were too many. -/
theorem whole_within {n m : Int} (h : n ≤ m) (tokens : List Token) :
    Within (whole n tokens) (whole m tokens) := by
  have hlevel : n.toNat + 1 ≤ m.toNat + 1 := by omega
  unfold whole
  split
  · exact Within.refl _
  · exact Within.refl _
  · exact (sequence_extends (Level.ofNat_extends hlevel) tokens).bind fun r => Within.refl _

end Parser

end SceneTemplates
