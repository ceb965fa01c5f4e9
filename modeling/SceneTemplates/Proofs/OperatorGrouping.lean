import Mathlib.Data.List.Basic
import Mathlib.Data.List.Induction
import SceneTemplates.Expression.Grouping

/-!
# Grouping by precedence

The tree of a row of operands is the only one that reads as the row and is grouped by the
precedence of its operators: on the left of an operator stand those that bind more tightly, or
equally if it groups from the left, and on the right those that bind more tightly, or equally if
it groups from the right. So it does not matter in which way a parser finds the tree.
-/
namespace SceneTemplates

namespace BinaryOperator

/-- Whether an operator may be at the root of the left side of another one. -/
def FitsLeft (outer inner : BinaryOperator) : Prop :=
  outer.precedence < inner.precedence ∨
    outer.precedence = inner.precedence ∧ outer.isRightAssociative = false

/-- Whether an operator may be at the root of the right side of another one. -/
def FitsRight (outer inner : BinaryOperator) : Prop :=
  outer.precedence < inner.precedence ∨
    outer.precedence = inner.precedence ∧ outer.isRightAssociative = true

/-- Operators of one precedence group from the same side. -/
theorem isRightAssociative_congr {op op' : BinaryOperator} (h : op.precedence = op'.precedence) :
    op.isRightAssociative = op'.isRightAssociative := by
  cases op <;> cases op' <;> first | rfl | cases h

/-- An operator takes the right side of a former one over exactly if it may be at its root. -/
theorem takesFrom_eq_true {next former : BinaryOperator} :
    next.takesFrom former = true ↔ former.FitsRight next := by
  simp [takesFrom, FitsRight]

/-- An operator that leaves a former one its right side may have it on its left. -/
theorem takesFrom_eq_false {next former : BinaryOperator} :
    next.takesFrom former = false ↔ next.FitsLeft former := by
  rw [← Bool.not_eq_true, takesFrom_eq_true, FitsRight, FitsLeft]
  by_cases h : next.precedence = former.precedence
  · rw [isRightAssociative_congr h, h]
    simp
  · have hne : former.precedence ≠ next.precedence := fun he => h he.symm
    simp only [h, hne, false_and, or_false]
    omega

theorem FitsRight.le {outer inner : BinaryOperator} (h : outer.FitsRight inner) :
    outer.precedence ≤ inner.precedence := by
  obtain h | ⟨h, -⟩ := h <;> omega

theorem FitsLeft.le {outer inner : BinaryOperator} (h : outer.FitsLeft inner) :
    outer.precedence ≤ inner.precedence := by
  obtain h | ⟨h, -⟩ := h <;> omega

/-- What binds as tightly as an operator on the right may be there too. -/
theorem FitsRight.mono {outer inner other : BinaryOperator} (h : outer.FitsRight inner)
    (hle : inner.precedence ≤ other.precedence) : outer.FitsRight other := by
  obtain h | ⟨h, hright⟩ := h
  · exact .inl (by omega)
  · by_cases he : outer.precedence = other.precedence
    · exact .inr ⟨he, hright⟩
    · exact .inl (by omega)

end BinaryOperator

namespace OperatorTree

/-- The operator at the root. -/
def root? : OperatorTree → Option BinaryOperator
  | .operand _ => none
  | .node op _ _ => some op

/-- A tree read from the left: its first operand, and each other one with the operator in front. -/
def reading : OperatorTree → Expr × List (BinaryOperator × Expr)
  | .operand e => (e, [])
  | .node op left right =>
    (left.reading.1, left.reading.2 ++ (op, right.reading.1) :: right.reading.2)

/-- Every operator may have what is at the roots of its two sides. -/
def IsGrouped : OperatorTree → Prop
  | .operand _ => True
  | .node op left right =>
    left.IsGrouped ∧ right.IsGrouped ∧ (∀ inner ∈ left.root?, op.FitsLeft inner) ∧
      ∀ inner ∈ right.root?, op.FitsRight inner

/-! ## The attached operator -/

/-- Attaching an operator adds it to the row. -/
@[simp] theorem reading_attach (op : BinaryOperator) (e : Expr) (tree : OperatorTree) :
    (attach op e tree).reading = (tree.reading.1, tree.reading.2 ++ [(op, e)]) := by
  induction tree with
  | operand first => rfl
  | node former left right _ ih =>
    rw [attach]
    split
    · simp only [reading, ih, List.append_assoc, List.cons_append]
    · simp only [reading]

/-- The root of a tree with an attached operator is the former one or that operator. -/
theorem root?_attach (op : BinaryOperator) (e : Expr) (tree : OperatorTree) :
    (attach op e tree).root? = tree.root? ∨ (attach op e tree).root? = some op := by
  cases tree with
  | operand first => exact .inr rfl
  | node former left right =>
    rw [attach]
    split
    · exact .inl rfl
    · exact .inr rfl

theorem isGrouped_attach {tree : OperatorTree} (h : tree.IsGrouped) (op : BinaryOperator)
    (e : Expr) : (attach op e tree).IsGrouped := by
  induction tree with
  | operand first => exact ⟨trivial, trivial, nofun, nofun⟩
  | node former left right _ ih =>
    obtain ⟨hleft, hright, hfitsLeft, hfitsRight⟩ := h
    rw [attach]
    split
    · next htakes =>
      refine ⟨hleft, ih hright, hfitsLeft, fun inner hinner => ?_⟩
      obtain hroot | hroot := root?_attach op e right
      · exact hfitsRight inner (hroot ▸ hinner)
      · rw [hroot] at hinner
        cases hinner
        exact BinaryOperator.takesFrom_eq_true.1 htakes
    · next htakes =>
      refine ⟨⟨hleft, hright, hfitsLeft, hfitsRight⟩, trivial, fun inner hinner => ?_, nofun⟩
      cases hinner
      exact BinaryOperator.takesFrom_eq_false.1 (by simpa using htakes)

/-- The tree of a row reads as the row. -/
@[simp] theorem reading_foldl (row : List (BinaryOperator × Expr)) (tree : OperatorTree) :
    (row.foldl (fun tree item => attach item.1 item.2 tree) tree).reading =
      (tree.reading.1, tree.reading.2 ++ row) := by
  induction row generalizing tree with
  | nil => simp
  | cons item rest ih => rw [List.foldl_cons, ih, reading_attach]; simp

@[simp] theorem reading_ofRow (first : Expr) (row : List (BinaryOperator × Expr)) :
    (ofRow first row).reading = (first, row) := reading_foldl row (.operand first)

/-- The tree of a row is grouped. -/
theorem isGrouped_ofRow (first : Expr) (row : List (BinaryOperator × Expr)) :
    (ofRow first row).IsGrouped := by
  have hall : ∀ tree : OperatorTree, tree.IsGrouped →
      (row.foldl (fun tree item => attach item.1 item.2 tree) tree).IsGrouped := by
    induction row with
    | nil => exact fun tree h => h
    | cons item rest ih => exact fun tree h => ih _ (isGrouped_attach h item.1 item.2)
  exact hall (.operand first) trivial

/-! ## The only tree -/

/-- No operator of a grouped tree binds less tightly than its root. -/
theorem IsGrouped.root_le {tree : OperatorTree} (h : tree.IsGrouped) {root : BinaryOperator}
    (hroot : tree.root? = some root) :
    ∀ item ∈ tree.reading.2, root.precedence ≤ item.1.precedence := by
  induction tree generalizing root with
  | operand first => cases hroot
  | node op left right ihleft ihright =>
    obtain ⟨hleft, hright, hfitsLeft, hfitsRight⟩ := h
    cases hroot
    intro item hitem
    rw [reading, List.mem_append, List.mem_cons] at hitem
    obtain hitem | rfl | hitem := hitem
    · cases hinner : left.root? with
      | none => cases left <;> cases hinner; cases hitem
      | some inner =>
        exact Nat.le_trans (hfitsLeft inner hinner).le (ihleft hleft hinner item hitem)
    · exact Nat.le_refl _
    · cases hinner : right.root? with
      | none => cases right <;> cases hinner; cases hitem
      | some inner =>
        exact Nat.le_trans (hfitsRight inner hinner).le (ihright hright hinner item hitem)

/-- A grouped tree with an operator is one without its last operator, to which that is attached. -/
theorem IsGrouped.exists_attach {tree : OperatorTree} (h : tree.IsGrouped) {first : Expr}
    {row : List (BinaryOperator × Expr)} {op : BinaryOperator} {e : Expr}
    (hreading : tree.reading = (first, row ++ [(op, e)])) :
    ∃ shorter : OperatorTree, shorter.IsGrouped ∧ shorter.reading = (first, row) ∧
      attach op e shorter = tree := by
  induction tree generalizing first row with
  | operand _ => simp [reading] at hreading
  | node root left right _ ih =>
    obtain ⟨hleft, hright, hfitsLeft, hfitsRight⟩ := h
    rw [reading] at hreading
    obtain ⟨hfirst, hrow⟩ := Prod.ext_iff.1 hreading
    dsimp only at hfirst hrow
    cases right with
    | operand last =>
      -- The root is the last operator: the tree without it is the left side.
      obtain ⟨hrest, hlast⟩ := List.append_inj' hrow rfl
      cases hlast
      refine ⟨left, hleft, Prod.ext hfirst hrest, ?_⟩
      cases left with
      | operand _ => rfl
      | node former _ _ =>
        rw [attach, BinaryOperator.takesFrom_eq_false.2 (hfitsLeft former rfl)]
        rfl
    | node inner left' right' =>
      -- The last operator stands on the right of the root, and binds as tightly as the root there.
      obtain ⟨others, item, hothers⟩ := List.eq_nil_or_concat' (node inner left' right').reading.2
        |>.resolve_left (by simp [reading])
      rw [hothers, ← List.cons_append, ← List.append_assoc] at hrow
      obtain ⟨hrest, hlast⟩ := List.append_inj' hrow rfl
      cases hlast
      obtain ⟨shorter, hshorter, hread, hattach⟩ := ih hright (Prod.ext rfl hothers)
      have htight : ∀ item ∈ (node inner left' right').reading.2,
          root.FitsRight item.1 := fun item hitem =>
        (hfitsRight inner rfl).mono (hright.root_le rfl item hitem)
      refine ⟨.node root left shorter, ⟨hleft, hshorter, hfitsLeft, ?_⟩, ?_, ?_⟩
      · intro inner' hinner'
        cases shorter with
        | operand _ => cases hinner'
        | node _ a b =>
          cases hinner'
          refine htight (inner', b.reading.1) ?_
          rw [hothers, ← show _ = others from congrArg Prod.snd hread, reading]
          simp
      · rw [reading, hread, ← hrest]
        exact Prod.ext hfirst rfl
      · have htakes := htight (op, e) (by rw [hothers]; simp)
        rw [attach, if_pos (BinaryOperator.takesFrom_eq_true.2 htakes), hattach]

/-- A grouped tree is the tree of the row that it reads as. -/
theorem IsGrouped.eq_ofRow {tree : OperatorTree} (h : tree.IsGrouped) {first : Expr}
    {row : List (BinaryOperator × Expr)} (hreading : tree.reading = (first, row)) :
    tree = ofRow first row := by
  induction row using List.reverseRecOn generalizing tree with
  | nil =>
    cases tree with
    | operand e => cases hreading; rfl
    | node op left right => simp [reading] at hreading
  | append_singleton row item ih =>
    obtain ⟨shorter, hshorter, hread, rfl⟩ := h.exists_attach hreading
    rw [ih hshorter hread, ofRow, ofRow, List.foldl_append]
    rfl

end OperatorTree

end SceneTemplates
