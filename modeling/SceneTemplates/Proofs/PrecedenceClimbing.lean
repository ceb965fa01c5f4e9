import SceneTemplates.Proofs.OperatorGrouping
import SceneTemplates.Proofs.ParserLocality

/-!
# Precedence climbing

Operands with binary operators between them can be parsed by precedence climbing: behind an operand
operators are taken as long as they reach a minimum of precedence, each with a right side for which
the minimum is raised. Taking all operands at first and attaching the operators afterwards is the
same. What is made of the operands is the only grouped tree of their row.
-/
namespace SceneTemplates

namespace BinaryOperator

/-- The least precedence of an operator at the root of the right side of another one. -/
def rightMinimum (op : BinaryOperator) : Nat :=
  if op.isRightAssociative then op.precedence else op.precedence + 1

theorem precedence_pos (op : BinaryOperator) : 1 ≤ op.precedence := by
  cases op <;> decide

@[simp] theorem rightMinimum_le {outer inner : BinaryOperator} :
    outer.rightMinimum ≤ inner.precedence ↔ outer.FitsRight inner := by
  unfold rightMinimum FitsRight
  cases outer.isRightAssociative with
  | true => simp only [if_true, and_true]; omega
  | false => simp only [Bool.false_eq_true, if_false, and_false, or_false]; omega

/-- An operator that does not reach the minimum of a former one may have it on its left. -/
@[simp] theorem lt_rightMinimum {next former : BinaryOperator} :
    next.precedence < former.rightMinimum ↔ next.FitsLeft former := by
  rw [← Nat.not_le, rightMinimum_le, ← takesFrom_eq_true, ← takesFrom_eq_false, Bool.not_eq_true]

end BinaryOperator

/-! ## Climbing over a row -/

namespace OperatorTree

variable {fuel minimum : Nat} {left : OperatorTree} {op : BinaryOperator} {e : Expr}
  {items : List (BinaryOperator × Expr)}

/-- Takes operators behind a tree as long as they reach a minimum, each with its right side; the
rest of the row is left. -/
def climb : Nat → Nat → OperatorTree → List (BinaryOperator × Expr) →
    OperatorTree × List (BinaryOperator × Expr)
  | 0, _, left, items => (left, items)
  | _ + 1, _, left, [] => (left, [])
  | fuel + 1, minimum, left, (op, e) :: items =>
    if op.precedence < minimum then (left, (op, e) :: items)
    else
      let right := climb fuel op.rightMinimum (.operand e) items
      climb fuel minimum (.node op left right.1) right.2

@[simp] theorem climb_low (h : op.precedence < minimum) :
    climb (fuel + 1) minimum left ((op, e) :: items) = (left, (op, e) :: items) := by
  rw [climb, if_pos h]

@[simp] theorem climb_high (h : ¬ op.precedence < minimum) :
    climb (fuel + 1) minimum left ((op, e) :: items) =
      climb fuel minimum (.node op left (climb fuel op.rightMinimum (.operand e) items).1)
        (climb fuel op.rightMinimum (.operand e) items).2 := by
  rw [climb, if_neg h]

/-- What becomes of a tree when operators behind it are taken that reach a minimum: a grouped tree
that reads on into the row, and a rest that begins with none of these operators. -/
structure Climbs (minimum : Nat) (left : OperatorTree) (items : List (BinaryOperator × Expr))
    (result : OperatorTree × List (BinaryOperator × Expr)) : Prop where
  isGrouped : result.1.IsGrouped
  first : result.1.reading.1 = left.reading.1
  others : result.1.reading.2 ++ result.2 = left.reading.2 ++ items
  root : ∀ root ∈ result.1.root?, root ∈ left.root? ∨ minimum ≤ root.precedence
  behind : ∀ item ∈ result.2.head?, item.1.precedence < minimum
  length_le : result.2.length ≤ items.length

theorem Climbs.refl (hleft : left.IsGrouped)
    (hbehind : ∀ item ∈ items.head?, item.1.precedence < minimum) :
    Climbs minimum left items (left, items) :=
  ⟨hleft, rfl, rfl, fun _ h => .inl h, hbehind, Nat.le_refl _⟩

/-- Grouped trees are made if the operator at the root may stand on the left of the next one. -/
theorem climb_climbs (hfuel : items.length ≤ fuel) (hleft : left.IsGrouped)
    (hfits : ∀ item ∈ items.head?, ∀ former ∈ left.root?, item.1.FitsLeft former) :
    Climbs minimum left items (climb fuel minimum left items) := by
  induction fuel generalizing minimum left items with
  | zero =>
    have hitems : items = [] := List.length_eq_zero_iff.1 (Nat.le_zero.1 hfuel)
    subst hitems
    exact .refl hleft nofun
  | succ fuel ih =>
    match items with
    | [] => exact .refl hleft nofun
    | (op, e) :: items =>
      rw [List.length_cons] at hfuel
      by_cases hlow : op.precedence < minimum
      · rw [climb_low hlow]
        refine .refl hleft fun item hitem => ?_
        cases hitem
        exact hlow
      · rw [climb_high hlow]
        have hright : Climbs op.rightMinimum (.operand e) items
            (climb fuel op.rightMinimum (.operand e) items) :=
          ih (by omega) trivial fun _ _ _ hformer => by cases hformer
        generalize climb fuel op.rightMinimum (.operand e) items = right at hright ⊢
        have hnode : (OperatorTree.node op left right.1).IsGrouped := by
          refine ⟨hleft, hright.isGrouped, fun former h => hfits _ rfl former h, fun inner h => ?_⟩
          obtain hnone | hroot := hright.root inner h
          · cases hnone
          · exact BinaryOperator.rightMinimum_le.1 hroot
        have hwhole : Climbs minimum (.node op left right.1) right.2
            (climb fuel minimum (.node op left right.1) right.2) := by
          refine ih (Nat.le_trans hright.length_le (by omega)) hnode fun item hitem former h => ?_
          cases h
          exact BinaryOperator.lt_rightMinimum.1 (hright.behind item hitem)
        refine ⟨hwhole.isGrouped, hwhole.first, ?_, fun root h => ?_, hwhole.behind, ?_⟩
        · rw [hwhole.others, reading, List.append_assoc, List.cons_append, hright.others,
            hright.first]
          rfl
        · obtain hnode | hroot := hwhole.root root h
          · cases hnode
            exact .inr (Nat.le_of_not_lt hlow)
          · exact .inr hroot
        · have hrest := hright.length_le
          have hlength := hwhole.length_le
          rw [List.length_cons]
          omega

/-- From the least precedence on, the whole row is taken, and its tree is made. -/
theorem climb_row (first : Expr) (hfuel : items.length ≤ fuel) :
    climb fuel 1 (.operand first) items = (ofRow first items, []) := by
  have h : Climbs 1 (.operand first) items (climb fuel 1 (.operand first) items) :=
    climb_climbs hfuel trivial fun _ _ _ hformer => by cases hformer
  generalize climb fuel 1 (.operand first) items = result at h
  obtain ⟨tree, others⟩ := result
  have hothers : others = [] := by
    cases others with
    | nil => rfl
    | cons item _ => exact absurd (h.behind item rfl) (Nat.not_lt.2 item.1.precedence_pos)
  subst hothers
  have hreading : tree.reading.2 = items := by simpa [reading] using h.others
  have htree : tree = ofRow first items := h.isGrouped.eq_ofRow (Prod.ext h.first hreading)
  rw [htree]

end OperatorTree

namespace Parser

variable {operand : Parser Expr} {rest tokens : List Token} {first : Expr}
  {row : List (BinaryOperator × Expr)} {fuel minimum : Nat} {left e : Expr}

/-! ## Climbing over tokens -/

/-- Takes operators behind an expression as long as they reach a minimum, each with its right
side. -/
def climbBehind (operand : Parser Expr) : Nat → Nat → Expr → Parser Expr
  | 0, _, left, tokens => .ok (left, tokens)
  | fuel + 1, minimum, left, tokens =>
    match tokens with
    | [] => .ok (left, tokens)
    | token :: following =>
      match token.kind.binary? with
      | none => .ok (left, tokens)
      | some op =>
        if op.precedence < minimum then .ok (left, tokens)
        else do
          let (first, rest) ← operand following
          let (right, rest) ← climbBehind operand fuel op.rightMinimum first rest
          climbBehind operand fuel minimum (.binary op left right) rest

/-- An operand with the operators behind it that reach a minimum of precedence. -/
def climb (operand : Parser Expr) (minimum : Nat) : Parser Expr := fun tokens => do
  let (first, rest) ← operand tokens
  climbBehind operand rest.length minimum first rest

theorem IsLocal.length_le (hoperand : IsLocal operand)
    (h : operand tokens = .ok (e, rest)) : rest.length ≤ tokens.length := by
  obtain ⟨used, rfl, -⟩ := hoperand.exists_used h
  rw [List.length_append]
  omega

/-- Climbing ends with fewer tokens, in front of an operator that does not reach the minimum. -/
theorem climbBehind_stops (hoperand : IsLocal operand) (hfuel : tokens.length ≤ fuel)
    (h : climbBehind operand fuel minimum left tokens = .ok (e, rest)) :
    rest.length ≤ tokens.length ∧
      ∀ token ∈ rest.head?, ∀ op ∈ token.kind.binary?, op.precedence < minimum := by
  induction fuel generalizing minimum left tokens e rest with
  | zero =>
    have htokens : tokens = [] := List.length_eq_zero_iff.1 (Nat.le_zero.1 hfuel)
    subst htokens
    cases h
    exact ⟨Nat.le_refl _, by simp⟩
  | succ fuel ih =>
    cases tokens with
    | nil =>
      cases h
      exact ⟨Nat.le_refl _, by simp⟩
    | cons token following =>
      rw [List.length_cons] at hfuel
      rw [climbBehind] at h
      cases hop : token.kind.binary? with
      | none =>
        rw [hop] at h
        cases h
        refine ⟨Nat.le_refl _, fun token' htoken op hop' => ?_⟩
        cases htoken
        rw [hop] at hop'
        cases hop'
      | some op =>
        rw [hop] at h
        dsimp only at h
        split at h
        · next hlow =>
          cases h
          refine ⟨Nat.le_refl _, fun token' htoken op' hop' => ?_⟩
          cases htoken
          rw [hop] at hop'
          cases hop'
          exact hlow
        · obtain ⟨⟨first, behind⟩, hfirst, h⟩ := Except.bind_eq_ok.1 h
          obtain ⟨⟨right, behind'⟩, hright, h⟩ := Except.bind_eq_ok.1 h
          dsimp only at hright h
          have hbehind := hoperand.length_le hfirst
          have hbehind' := (ih (by omega) hright).1
          obtain ⟨hlength, hstops⟩ := ih (by omega) h
          rw [List.length_cons]
          exact ⟨by omega, hstops⟩

/-- The bound on a row does not matter if there are no more tokens. -/
theorem moreOperands_fuel (hoperand : IsLocal operand) (hfuel : tokens.length ≤ fuel) :
    moreOperands operand fuel tokens = moreOperands operand tokens.length tokens := by
  induction fuel using Nat.strongRecOn generalizing tokens with
  | ind fuel ih =>
    cases tokens with
    | nil => rw [moreOperands_done operand fuel rfl, moreOperands_done operand _ rfl]
    | cons token following =>
      rw [List.length_cons] at hfuel ⊢
      obtain ⟨fuel, rfl⟩ : ∃ m, fuel = m + 1 := ⟨fuel - 1, by omega⟩
      rw [moreOperands, moreOperands]
      cases hop : token.kind.binary? with
      | none => rfl
      | some op =>
        cases hfirst : operand following with
        | error cause => rfl
        | ok taken =>
          obtain ⟨first, rest⟩ := taken
          have hrest := hoperand.length_le hfirst
          show (moreOperands operand fuel rest >>= _) =
            (moreOperands operand following.length rest >>= _)
          rw [ih fuel (by omega) (Nat.le_trans hrest (by omega)),
            ih following.length (by omega) hrest]

/-- An operator at the front of a row that is taken, with what is behind it. -/
theorem exists_of_moreOperands (hoperand : IsLocal operand) {token : Token}
    {following last : List Token} {op : BinaryOperator} (hop : token.kind.binary? = some op)
    (h : moreOperands operand (token :: following).length (token :: following) = .ok (row, last)) :
    ∃ first rest others, operand following = .ok (first, rest) ∧
      moreOperands operand rest.length rest = .ok (others, last) ∧ row = (op, first) :: others := by
  rw [List.length_cons, moreOperands, hop] at h
  obtain ⟨⟨first, rest⟩, hfirst, h⟩ := Except.bind_eq_ok.1 h
  obtain ⟨⟨others, last'⟩, hothers, hpure⟩ := Except.bind_eq_ok.1 h
  cases hpure
  rw [moreOperands_fuel hoperand (hoperand.length_le hfirst)] at hothers
  exact ⟨first, rest, others, hfirst, hothers, rfl⟩

/-- If all operands can be taken, climbing over the tokens is climbing over the row. -/
theorem climbBehind_of_row (hoperand : IsLocal operand) (minimum : Nat) (tree : OperatorTree)
    {last : List Token} (hfuel : tokens.length ≤ fuel)
    (hrow : moreOperands operand tokens.length tokens = .ok (row, last)) :
    ∃ rest, climbBehind operand fuel minimum tree.toExpr tokens =
        .ok ((tree.climb fuel minimum row).1.toExpr, rest) ∧
      moreOperands operand rest.length rest = .ok ((tree.climb fuel minimum row).2, last) := by
  induction fuel generalizing minimum tree tokens row with
  | zero => exact ⟨tokens, rfl, hrow⟩
  | succ fuel ih =>
    cases tokens with
    | nil =>
      cases hrow
      exact ⟨[], rfl, rfl⟩
    | cons token following =>
      rw [climbBehind]
      cases hop : token.kind.binary? with
      | none =>
        rw [List.length_cons, moreOperands, hop] at hrow
        cases hrow
        refine ⟨token :: following, rfl, ?_⟩
        rw [List.length_cons, moreOperands, hop]
        rfl
      | some op =>
        obtain ⟨first, rest, others, hfirst, hothers, rfl⟩ :=
          exists_of_moreOperands hoperand hop hrow
        have hrest := hoperand.length_le hfirst
        rw [List.length_cons] at hfuel
        dsimp only
        by_cases hlow : op.precedence < minimum
        · rw [if_pos hlow, OperatorTree.climb_low hlow]
          exact ⟨token :: following, rfl, hrow⟩
        · rw [if_neg hlow, OperatorTree.climb_high hlow, hfirst]
          obtain ⟨behind, hright, hleft⟩ := ih op.rightMinimum (.operand first) (by omega) hothers
          have hbehind := (climbBehind_stops hoperand (by omega) hright).1
          obtain ⟨behind', hwhole, hremaining⟩ := ih minimum (.node op tree _) (by omega) hleft
          refine ⟨behind', ?_, hremaining⟩
          exact Except.bind_eq_ok.2 ⟨_, rfl, Except.bind_eq_ok.2 ⟨_, hright, hwhole⟩⟩

/-- An operand that cannot be taken ends climbing, or stands behind an operator that does not reach
the minimum. -/
theorem climbBehind_of_error (hoperand : IsLocal operand) (minimum : Nat) (left : Expr)
    {cause : ExpressionCause} (hfuel : tokens.length ≤ fuel)
    (hrow : moreOperands operand tokens.length tokens = .error cause) :
    climbBehind operand fuel minimum left tokens = .error cause ∨
      ∃ e rest, climbBehind operand fuel minimum left tokens = .ok (e, rest) ∧
        moreOperands operand rest.length rest = .error cause := by
  induction fuel generalizing minimum left tokens with
  | zero => exact .inr ⟨left, tokens, rfl, hrow⟩
  | succ fuel ih =>
    cases tokens with
    | nil => cases hrow
    | cons token following =>
      rw [climbBehind]
      cases hop : token.kind.binary? with
      | none =>
        rw [List.length_cons, moreOperands, hop] at hrow
        cases hrow
      | some op =>
        rw [List.length_cons] at hfuel
        dsimp only
        split
        · exact .inr ⟨left, token :: following, rfl, hrow⟩
        rw [List.length_cons, moreOperands, hop] at hrow
        obtain hfirst | ⟨⟨first, rest⟩, hfirst, hfail⟩ := Except.bind_eq_error.1 hrow
        · exact .inl (Except.bind_eq_error.2 (.inl hfirst))
        obtain hothers | ⟨_, -, hpure⟩ := Except.bind_eq_error.1 hfail
        · have hrest := hoperand.length_le hfirst
          rw [moreOperands_fuel hoperand hrest] at hothers
          obtain hright | ⟨right, behind, hright, hremaining⟩ :=
            ih op.rightMinimum first (by omega) hothers
          · exact .inl (Except.bind_eq_error.2
              (.inr ⟨_, hfirst, Except.bind_eq_error.2 (.inl hright)⟩))
          have hbehind := (climbBehind_stops hoperand (by omega) hright).1
          obtain hwhole | ⟨e, behind', hwhole, hlast⟩ :=
            ih minimum (.binary op left right) (by omega) hremaining
          · exact .inl (Except.bind_eq_error.2
              (.inr ⟨_, hfirst, Except.bind_eq_error.2 (.inr ⟨_, hright, hwhole⟩)⟩))
          · exact .inr ⟨e, behind', Except.bind_eq_ok.2 ⟨_, hfirst,
              Except.bind_eq_ok.2 ⟨_, hright, hwhole⟩⟩, hlast⟩
        · cases hpure

theorem length_le_of_moreOperands (h : moreOperands operand fuel tokens = .ok (row, rest)) :
    row.length ≤ fuel := by
  induction fuel generalizing tokens row rest with
  | zero =>
    cases h
    exact Nat.le_refl _
  | succ fuel ih =>
    cases tokens with
    | nil =>
      cases h
      exact Nat.zero_le _
    | cons token following =>
      rw [moreOperands] at h
      cases hop : token.kind.binary? with
      | none =>
        rw [hop] at h
        cases h
        exact Nat.zero_le _
      | some op =>
        rw [hop] at h
        obtain ⟨_, -, h⟩ := Except.bind_eq_ok.1 h
        obtain ⟨_, hothers, hpure⟩ := Except.bind_eq_ok.1 h
        cases hpure
        exact Nat.succ_le_succ (ih hothers)

/-- Every operator reaches the least precedence. -/
theorem moreOperands_of_stops
    (h : ∀ token ∈ rest.head?, ∀ op ∈ token.kind.binary?, op.precedence < 1) :
    moreOperands operand rest.length rest = .ok ([], rest) := by
  cases rest with
  | nil => rfl
  | cons token following =>
    rw [List.length_cons, moreOperands]
    cases hop : token.kind.binary? with
    | none => rfl
    | some op => exact absurd (h token rfl op hop) (Nat.not_lt.2 op.precedence_pos)

/-- Operators are parsed by precedence climbing. -/
theorem operators_eq_climb (hoperand : IsLocal operand) : operators operand = climb operand 1 := by
  funext tokens
  unfold operators climb
  cases hfirst : operand tokens with
  | error cause => rfl
  | ok taken =>
    obtain ⟨first, behind⟩ := taken
    show (moreOperands operand behind.length behind >>= _) =
      climbBehind operand behind.length 1 first behind
    cases hrow : moreOperands operand behind.length behind with
    | error cause =>
      obtain hclimb | ⟨e, rest, hclimb, hrest⟩ :=
        climbBehind_of_error hoperand 1 first (Nat.le_refl _) hrow
      · rw [hclimb]
        rfl
      · have hstops := (climbBehind_stops hoperand (Nat.le_refl _) hclimb).2
        rw [moreOperands_of_stops hstops] at hrest
        cases hrest
    | ok parsed =>
      obtain ⟨row, last⟩ := parsed
      obtain ⟨rest, hclimb, hrest⟩ :=
        climbBehind_of_row hoperand 1 (.operand first) (Nat.le_refl _) hrow
      have hstops := (climbBehind_stops hoperand (Nat.le_refl _) hclimb).2
      rw [OperatorTree.climb_row first (length_le_of_moreOperands hrow)] at hclimb hrest
      rw [moreOperands_of_stops hstops] at hrest
      cases hrest
      exact hclimb.symm

/-! ## Rows of operands -/

/-- Tokens that are operands with binary operators between them, down to a rest that no binary
operator begins. Each operand is a run of tokens that the parser of operands takes in front of the
token behind it. -/
inductive Row (operand : Parser Expr) (rest : List Token) :
    List Token → Expr → List (BinaryOperator × Expr) → Prop
  | last {run : List Token} {e : Expr} (hrun : operand (run ++ rest) = .ok (e, rest))
      (hrest : (front rest).binary? = none) : Row operand rest (run ++ rest) e []
  | next {run tokens : List Token} {sign : Token} {op : BinaryOperator} {e e' : Expr}
      {row : List (BinaryOperator × Expr)} (hrun : operand (run ++ [sign]) = .ok (e, [sign]))
      (hsign : sign.kind.binary? = some op) (hmore : Row operand rest tokens e' row) :
      Row operand rest (run ++ sign :: tokens) e ((op, e') :: row)

/-- The operands are taken one after the other, each with the operator in front of it. -/
theorem Row.exists_behind (hoperand : IsLocal operand) (h : Row operand rest tokens first row) :
    ∃ behind, operand tokens = .ok (first, behind) ∧
      ∀ fuel, behind.length ≤ fuel → moreOperands operand fuel behind = .ok (row, rest) := by
  induction h with
  | last hrun hrest => exact ⟨rest, hrun, fun fuel _ => moreOperands_done operand fuel hrest⟩
  | @next run tokens sign op e e' row hrun hsign _ ih =>
    -- An operand ends in front of its operator, whatever is behind that.
    obtain ⟨used, hused, -, hsame⟩ := hoperand.exists_used hrun
    obtain rfl := List.append_cancel_right hused
    refine ⟨sign :: tokens, hsame run (sign :: tokens) rfl rfl, fun fuel hfuel => ?_⟩
    obtain ⟨behind, htaken, hmore⟩ := ih
    obtain ⟨used', rfl, -⟩ := hoperand.exists_used htaken
    rw [List.length_cons, List.length_append] at hfuel
    obtain ⟨fuel, rfl⟩ : ∃ m, fuel = m + 1 := ⟨fuel - 1, by omega⟩
    rw [moreOperands_cons operand hsign]
    exact Except.bind_eq_ok.2 ⟨_, htaken,
      Except.bind_eq_ok.2 ⟨_, hmore fuel (by omega), rfl⟩⟩

/-- Operands with binary operators between them are taken down to the rest, by precedence climbing
from the least precedence on. What is made of them is the only tree that reads as the row of the
operands and is grouped by precedence. -/
theorem operators_grouped {n : Nat} (h : Row (Level.ofNat n).operand rest tokens first row) :
    ∃ tree : OperatorTree, operators (Level.ofNat n).operand tokens = .ok (tree.toExpr, rest) ∧
      climb (Level.ofNat n).operand 1 tokens = .ok (tree.toExpr, rest) ∧
      ∀ other : OperatorTree, other.reading = (first, row) ∧ other.IsGrouped ↔ other = tree := by
  have hoperand : IsLocal (Level.ofNat n).operand := (Level.ofNat_local n).2
  obtain ⟨behind, htaken, hmore⟩ := h.exists_behind hoperand
  have hoperators := operators_of_row htaken (hmore behind.length (Nat.le_refl _))
  refine ⟨OperatorTree.ofRow first row, hoperators, ?_, fun other => ⟨?_, ?_⟩⟩
  · rw [← operators_eq_climb hoperand]
    exact hoperators
  · rintro ⟨hreading, hgrouped⟩
    exact hgrouped.eq_ofRow hreading
  · rintro rfl
    exact ⟨OperatorTree.reading_ofRow first row, OperatorTree.isGrouped_ofRow first row⟩

/-- The row `a - -b ** c ** d` at the end of a source: an operand with an operator of its own, and
two equal operators that group from the right. -/
theorem operators_grouped_powers :
    let minus (position : Nat) : Token := ⟨.symbol (.binary .minus), position⟩
    let power (position : Nat) : Token := ⟨.symbol (.binary .power), position⟩
    let tokens : List Token := [⟨.name "a", 0⟩, minus 1, minus 2, ⟨.name "b", 3⟩, power 4,
      ⟨.name "c", 6⟩, power 7, ⟨.name "d", 9⟩, ⟨.finish, 10⟩]
    let row : List (BinaryOperator × Expr) :=
      [(.minus, .unary .minus (.name "b")), (.power, .name "c"), (.power, .name "d")]
    Row (Level.ofNat 2).operand [⟨.finish, 10⟩] tokens (.name "a") row ∧
      ∃ tree : OperatorTree,
        operators (Level.ofNat 2).operand tokens = .ok (tree.toExpr, [⟨.finish, 10⟩]) ∧
        climb (Level.ofNat 2).operand 1 tokens = .ok (tree.toExpr, [⟨.finish, 10⟩]) ∧
        ∀ other : OperatorTree,
          other.reading = (.name "a", row) ∧ other.IsGrouped ↔ other = tree := by
  intro minus power tokens row
  have hd : Row (Level.ofNat 2).operand [⟨.finish, 10⟩] ([⟨.name "d", 9⟩] ++ [⟨.finish, 10⟩])
      (.name "d") [] := .last rfl rfl
  have hc : Row (Level.ofNat 2).operand [⟨.finish, 10⟩]
      ([⟨.name "c", 6⟩] ++ power 7 :: ([⟨.name "d", 9⟩] ++ [⟨.finish, 10⟩]))
      (.name "c") [(.power, .name "d")] := .next rfl rfl hd
  have hb : Row (Level.ofNat 2).operand [⟨.finish, 10⟩] ([minus 2, ⟨.name "b", 3⟩] ++ power 4 ::
      ([⟨.name "c", 6⟩] ++ power 7 :: ([⟨.name "d", 9⟩] ++ [⟨.finish, 10⟩])))
      (.unary .minus (.name "b")) [(.power, .name "c"), (.power, .name "d")] := .next rfl rfl hc
  have hrow : Row (Level.ofNat 2).operand [⟨.finish, 10⟩] ([⟨.name "a", 0⟩] ++ minus 1 :: _)
      (.name "a") row := .next rfl rfl hb
  exact ⟨hrow, operators_grouped hrow⟩

end Parser

end SceneTemplates
