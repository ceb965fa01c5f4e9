import SceneTemplates.Expression.Evaluation
import SceneTemplates.Proofs.AlikeValues
import SceneTemplates.Proofs.DoubleRange
import SceneTemplates.Proofs.Steps

/-!
# Calculated values

What the operators of arithmetic make of two values. Operands are converted to numbers within the
range of doubles, and there every operation has a result, which is within the range again. So an
operator fails only for an operand that has no number, and no integer grows beyond the largest
double.
-/
namespace SceneTemplates

namespace Number

variable {a b n : Number}

/-- A double, or an integer that is not beyond the finite doubles. -/
inductive IsInRange : Number → Prop where
  | int {n : ℤ} (size : |n| ≤ Double.maxFinite) : IsInRange (.int n)
  | double (x : Double) : IsInRange (.double x)

@[simp] theorem isInRange_int_iff {n : ℤ} : (int n).IsInRange ↔ |n| ≤ Double.maxFinite := by
  constructor
  · intro h
    cases h with
    | int size => exact size
  · exact .int

theorem isInRange_small {n : ℤ} (h : |n| ≤ 1) : (int n).IsInRange :=
  .int (h.trans Double.maxFinite_pos)

theorem collapse_int (n : ℤ) :
    (int n).collapse = if Double.maxFinite < n then double (.infinity false)
      else if n < -Double.maxFinite then double (.infinity true) else int n := rfl

/-- A number within the range stays; every other one is an integer that becomes an infinity. -/
theorem collapse_cases (n : Number) :
    (n.IsInRange ∧ n.collapse = n) ∨
      ¬ n.IsInRange ∧ n.isNaN = false ∧ ∃ negative, n.collapse = double (.infinity negative) := by
  cases n with
  | double x => exact .inl ⟨.double x, rfl⟩
  | int n =>
    rw [isInRange_int_iff, abs_le, collapse_int]
    by_cases habove : Double.maxFinite < n
    · have hrange : ¬ (-Double.maxFinite ≤ n ∧ n ≤ Double.maxFinite) := by omega
      exact .inr ⟨hrange, rfl, false, if_pos habove⟩
    · by_cases hbelow : n < -Double.maxFinite
      · have hrange : ¬ (-Double.maxFinite ≤ n ∧ n ≤ Double.maxFinite) := by omega
        exact .inr ⟨hrange, rfl, true, by rw [if_neg habove, if_pos hbelow]⟩
      · have hrange : -Double.maxFinite ≤ n ∧ n ≤ Double.maxFinite := by omega
        exact .inl ⟨hrange, by rw [if_neg habove, if_neg hbelow]⟩

theorem isInRange_collapse (n : Number) : n.collapse.IsInRange := by
  obtain ⟨hrange, hcollapse⟩ | ⟨-, -, negative, hcollapse⟩ := n.collapse_cases
  · rwa [hcollapse]
  · rw [hcollapse]
    exact .double _

@[simp] theorem IsInRange.collapse_eq (h : n.IsInRange) : n.collapse = n := by
  obtain ⟨-, hcollapse⟩ | ⟨hrange, -⟩ := n.collapse_cases
  · exact hcollapse
  · exact absurd h hrange

theorem collapse_of_not_isInRange (h : ¬ n.IsInRange) :
    ∃ negative, n.collapse = double (.infinity negative) := by
  obtain ⟨hrange, -⟩ | ⟨-, -, hinfinite⟩ := n.collapse_cases
  · exact absurd hrange h
  · exact hinfinite

@[simp] theorem isNaN_collapse (n : Number) : n.collapse.isNaN = n.isNaN := by
  obtain ⟨-, hcollapse⟩ | ⟨-, hnumber, negative, hcollapse⟩ := n.collapse_cases
  · rw [hcollapse]
  · rw [hcollapse, hnumber]
    rfl

/-! ## Conversion to doubles -/

/-- The double that a number is converted to; it is zero if the number is. -/
structure ConvertsTo (n : Number) (x : Double) : Prop where
  toDouble : n.toDouble = .ok x
  isZero : x.isZero = n.isZero

theorem IsInRange.exists_convertsTo (h : n.IsInRange) : ∃ x, n.ConvertsTo x := by
  cases h with
  | double x => exact ⟨x, rfl, rfl⟩
  | int h =>
    obtain ⟨x, hx, hzero⟩ := Double.exists_ofInt? h
    exact ⟨x, by simp only [toDouble, hx], hzero⟩

/-! ## Operations within the range -/

theorem exists_combine (onInts : ℤ → ℤ → ℤ) (onDoubles : Double → Double → Double)
    (ha : a.IsInRange) (hb : b.IsInRange) : ∃ n, combine onInts onDoubles a b = .ok n := by
  obtain ⟨x, hx⟩ := ha.exists_convertsTo
  obtain ⟨y, hy⟩ := hb.exists_convertsTo
  have hdoubles : (do return .double (onDoubles (← a.toDouble) (← b.toDouble)) :
      Except ArithmeticFault Number) = .ok (.double (onDoubles x y)) := by
    rw [hx.toDouble, hy.toDouble]
    rfl
  cases a with
  | double x => exact ⟨_, hdoubles⟩
  | int m =>
    cases b with
    | double y => exact ⟨_, hdoubles⟩
    | int n => exact ⟨_, rfl⟩

/-- The quotient of two integers is not beyond the dividend. -/
theorem exists_quotient_int {m n : ℤ} (hm : |m| ≤ Double.maxFinite) (hn : n ≠ 0) :
    ∃ x, quotient (.int m) (.int n) = .ok x := by
  have hdivisor : (1 : ℚ) ≤ n.natAbs := by exact_mod_cast Int.natAbs_pos.2 hn
  have hdividend : (m.natAbs : ℚ) ≤ Double.maxFinite := by
    rw [Nat.cast_natAbs]
    exact Int.cast_le.2 hm
  have hquotient : (m.natAbs : ℚ) / n.natAbs < Double.overflowBound :=
    (div_le_self (Nat.cast_nonneg _) hdivisor).trans_lt
      (hdividend.trans_lt Double.maxFinite_lt_overflowBound)
  have hnonneg : (0 : ℚ) ≤ (m.natAbs : ℚ) / n.natAbs :=
    div_nonneg (Nat.cast_nonneg _) (Nat.cast_nonneg _)
  have hfinite := Double.isFinite_ofMagnitude (decide (m < 0) != decide (n < 0)) hnonneg hquotient
  simp only [quotient, if_neg hn]
  split
  · next hinfinite =>
    rw [hinfinite] at hfinite
    cases hfinite
  · exact ⟨_, rfl⟩

theorem exists_quotient (ha : a.IsInRange) (hb : b.IsInRange) (hzero : b.isZero = false) :
    ∃ x, quotient a b = .ok x := by
  obtain ⟨x, hx⟩ := ha.exists_convertsTo
  obtain ⟨y, hy⟩ := hb.exists_convertsTo
  have hdoubles : (do
      let x ← a.toDouble
      let y ← b.toDouble
      if y.isZero then .error .divisionByZero else .ok (x.div y) :
        Except ArithmeticFault Double) = .ok (x.div y) := by
    have hdivisor : ¬ y.isZero = true := by simp [hy.isZero, hzero]
    rw [hx.toDouble, hy.toDouble]
    exact if_neg hdivisor
  cases a with
  | double x => exact ⟨_, hdoubles⟩
  | int m =>
    cases b with
    | double y => exact ⟨_, hdoubles⟩
    | int n =>
      have hn : n ≠ 0 := by simpa [isZero] using hzero
      exact exists_quotient_int (isInRange_int_iff.1 ha) hn

theorem exists_divide (ha : a.IsInRange) (hb : b.IsInRange) :
    ∃ n, divide a b = .ok n ∧ n.IsInRange := by
  unfold divide
  split_ifs with hzero hnone
  · exact ⟨_, rfl, .double _⟩
  · obtain ⟨x, hx⟩ := ha.exists_convertsTo
    obtain ⟨y, hy⟩ := hb.exists_convertsTo
    simp only [hx.toDouble, hy.toDouble, bind, Except.bind]
    split
    · exact ⟨_, rfl, .double _⟩
    · exact ⟨_, rfl, .double _⟩
  obtain ⟨x, hx⟩ := exists_quotient ha hb (Bool.eq_false_of_not_eq_true hzero)
  have hrounded : ∃ n, (quotient a b).map double = .ok n ∧ n.IsInRange :=
    ⟨double x, by rw [hx]; rfl, .double x⟩
  cases a with
  | double x => exact hrounded
  | int m =>
    cases b with
    | double y => exact hrounded
    | int n =>
      dsimp only
      split_ifs with hexact
      · have hpart : |m / n| ≤ |m| := Int.abs_ediv_le_abs m n
        exact ⟨_, rfl, .int (hpart.trans (isInRange_int_iff.1 ha))⟩
      · exact hrounded

theorem exists_modulo (ha : a.IsInRange) (hb : b.IsInRange) :
    ∃ n, modulo a b = .ok n ∧ n.IsInRange := by
  obtain ⟨x, hx⟩ := ha.exists_convertsTo
  obtain ⟨y, hy⟩ := hb.exists_convertsTo
  unfold modulo
  split_ifs with hzero
  · exact ⟨_, rfl, .double _⟩
  simp only [hx.toDouble, hy.toDouble, bind, Except.bind]
  split_ifs with hnumber hnone hinfinite
  · exact ⟨_, rfl, .double _⟩
  · exact ⟨_, rfl, .double _⟩
  · exact ⟨a, rfl, ha⟩
  have hrounded : ∃ n, (floatRemainder a b).map double = .ok n ∧ n.IsInRange := by
    have hdefined : ¬ (!x.isNaN && !y.isNaN && (x.isInfinite || y.isZero)) = true := by
      simp_all [hy.isZero]
    refine ⟨double (x.fmod y), ?_, .double _⟩
    rw [floatRemainder, hx.toDouble, hy.toDouble]
    simp only [bind, Except.bind, if_neg hdefined]
    rfl
  cases a with
  | double x => exact hrounded
  | int m =>
    cases b with
    | double y => exact hrounded
    | int n =>
      have hpart : |m.tmod n| ≤ |m| := by
        rw [Int.abs_eq_natAbs, Int.abs_eq_natAbs, Int.natAbs_tmod]
        exact_mod_cast Nat.mod_le _ _
      exact ⟨_, rfl, .int (hpart.trans (isInRange_int_iff.1 ha))⟩

theorem exists_power (ha : a.IsInRange) (hb : b.IsInRange) :
    ∃ n, power a b = .ok n ∧ n.IsInRange := by
  obtain ⟨x, hx⟩ := ha.exists_convertsTo
  obtain ⟨y, hy⟩ := hb.exists_convertsTo
  have hdoubles : ∃ n, powerOfDoubles a b = .ok n ∧ n.IsInRange := by
    simp only [powerOfDoubles, hx.toDouble, hy.toDouble, bind, Except.bind]
    -- Each way in which the power of two doubles can fail has a double in its place.
    split <;> exact ⟨_, rfl, .double _⟩
  cases a with
  | double x => exact hdoubles
  | int m =>
    cases b with
    | double y => exact hdoubles
    | int n =>
      simp only [power]
      split_ifs with hexact
      · exact ⟨_, rfl, isInRange_collapse _⟩
      · exact hdoubles

theorem isInRange_neg (h : n.IsInRange) : n.neg.IsInRange := by
  cases h with
  | double x => exact .double _
  | int h => exact .int ((abs_neg _).trans_le h)

/-- A text stands for a number within the range. -/
theorem isInRange_ofText (text : Text) : (ofText text).IsInRange := by
  unfold ofText
  dsimp only
  by_cases hempty : text.trim.isEmpty = true
  · rw [if_pos hempty]
    exact isInRange_small (by decide)
  rw [if_neg hempty]
  split
  · exact isInRange_collapse _
  · split
    · exact .double _
    · split
      · exact isInRange_collapse _
      · exact .double _

end Number

/-- The operators of arithmetic. -/
def BinaryOperator.IsArithmetic : BinaryOperator → Prop
  | .plus | .minus | .times | .divide | .modulo | .power => True
  | _ => False

/-- The operators that keep or change a sign. -/
def UnaryOperator.IsSign : UnaryOperator → Prop
  | .plus | .minus => True
  | _ => False

namespace Value

variable {a b v : Value} {f : Number → Number → Except ArithmeticFault Number}

/-- Functions and objects have no number. -/
def HasNumber (v : Value) : Prop := v.kind ≠ .function ∧ v.kind ≠ .object

theorem HasNumber.exists_number (h : v.HasNumber) : ∃ n, v.toNumber = .ok n ∧ n.IsInRange := by
  cases v with
  | bool b => exact ⟨_, rfl, Number.isInRange_small (by cases b <;> decide)⟩
  | number n => exact ⟨_, rfl, n.isInRange_collapse⟩
  | null => exact ⟨_, rfl, Number.isInRange_small (by decide)⟩
  | undefined => exact ⟨_, rfl, .double _⟩
  | text t => exact ⟨_, rfl, Number.isInRange_ofText t⟩
  | function => exact absurd rfl h.1
  | _ => exact absurd rfl h.2

theorem toNumber_of_not_hasNumber (h : ¬ v.HasNumber) :
    v.toNumber = .error (.notConvertible v.kind) := by
  cases v with
  | bool | number | null | undefined | text => exact absurd ⟨nofun, nofun⟩ h
  | _ => rfl

/-- What may come of two operands that are converted to numbers, the left one first. -/
inductive Computed (a b : Value) : Except ExpressionCause Value → Prop where
  | number {n : Number} (left : a.HasNumber) (right : b.HasNumber) (inRange : n.IsInRange) :
    Computed a b (.ok (.number n))
  | left (none : ¬ a.HasNumber) : Computed a b (.error (.notConvertible a.kind))
  | right (left : a.HasNumber) (none : ¬ b.HasNumber) :
    Computed a b (.error (.notConvertible b.kind))

theorem arithmetic_computed (hf : ∀ m n : Number, m.IsInRange → n.IsInRange →
    ∃ r, f m n = .ok r ∧ r.IsInRange) (a b : Value) : Computed a b (arithmetic f a b) := by
  by_cases ha : a.HasNumber
  · obtain ⟨m, hm, hmrange⟩ := ha.exists_number
    by_cases hb : b.HasNumber
    · obtain ⟨n, hn, hnrange⟩ := hb.exists_number
      obtain ⟨r, hr, hrange⟩ := hf m n hmrange hnrange
      have hresult : arithmetic f a b = .ok (.number r) := by
        simp only [arithmetic, hm, hn, hr, bind, Except.bind]
      rw [hresult]
      exact .number ha hb hrange
    · have hresult : arithmetic f a b = .error (.notConvertible b.kind) := by
        simp only [arithmetic, hm, toNumber_of_not_hasNumber hb, bind, Except.bind]
      rw [hresult]
      exact .right ha hb
  · have hresult : arithmetic f a b = .error (.notConvertible a.kind) := by
      simp only [arithmetic, toNumber_of_not_hasNumber ha, bind, Except.bind]
    rw [hresult]
    exact .left ha

theorem map_collapse_arithmetic (f : Number → Number → Except ArithmeticFault Number)
    (a b : Value) :
    (arithmetic f a b).map collapse = arithmetic (fun m n => (f m n).map Number.collapse) a b := by
  simp only [arithmetic]
  rcases a.toNumber with _ | m
  · rfl
  rcases b.toNumber with _ | n
  · rfl
  simp only [bind, Except.bind]
  rcases f m n with _ | r <;> rfl

/-- A sum, a difference or a product is rounded where it leaves the range. -/
theorem combined_computed (onInts : ℤ → ℤ → ℤ) (onDoubles : Double → Double → Double)
    (a b : Value) :
    Computed a b ((arithmetic (Number.combine onInts onDoubles) a b).map collapse) := by
  rw [map_collapse_arithmetic]
  refine arithmetic_computed (fun m n hm hn => ?_) a b
  obtain ⟨r, hr⟩ := Number.exists_combine onInts onDoubles hm hn
  exact ⟨r.collapse, by rw [hr]; rfl, r.isInRange_collapse⟩

/-- An operator that joins two texts. -/
def Joins (op : BinaryOperator) (a b : Value) : Prop :=
  op = .plus ∧ (a.kind = .string ∨ b.kind = .string)

/-- What an operator of arithmetic may make of two operands. -/
inductive Calculated (op : BinaryOperator) (a b : Value) : Except ExpressionCause Value → Prop where
  | joined (joins : Joins op a b) : Calculated op a b (.ok (.text (a.toText ++ b.toText)))
  | computed {outcome : Except ExpressionCause Value} (numbers : ¬ Joins op a b)
    (computed : Computed a b outcome) : Calculated op a b outcome

theorem plus_calculated (a b : Value) : Calculated .plus a b (plus a b) := by
  have hkind : ∀ v : Value, v.kind = .string ↔ v.text?.isSome = true := by
    intro v
    cases v <;> simp [kind, text?]
  have htext : ∀ (v : Value) t, v.text? = some t → v.toText = t := by
    intro v t ht
    cases v <;> cases ht
    rfl
  rw [plus_eq]
  cases ha : a.text? with
  | some t =>
    have hjoins : Joins .plus a b := ⟨rfl, .inl ((hkind a).2 (by simp [ha]))⟩
    have hjoined := Calculated.joined hjoins
    rwa [htext a t ha] at hjoined
  | none =>
    cases hb : b.text? with
    | some t =>
      have hjoins : Joins .plus a b := ⟨rfl, .inr ((hkind b).2 (by simp [hb]))⟩
      have hjoined := Calculated.joined hjoins
      rwa [htext b t hb] at hjoined
    | none =>
      have hnumbers : ¬ Joins .plus a b := by simp [Joins, hkind, ha, hb]
      exact .computed hnumbers (combined_computed _ _ a b)

theorem operate_calculated {op : BinaryOperator} (hop : op.IsArithmetic) (a b : Value) :
    Calculated op a b (operate op a b) := by
  have hnumbers : op ≠ .plus → ¬ Joins op a b := fun hplus hjoins => hplus hjoins.1
  cases op with
  | plus => exact plus_calculated a b
  | minus | times => exact .computed (hnumbers nofun) (combined_computed _ _ a b)
  | divide =>
    exact .computed (hnumbers nofun) (arithmetic_computed (fun _ _ => Number.exists_divide) a b)
  | modulo =>
    exact .computed (hnumbers nofun) (arithmetic_computed (fun _ _ => Number.exists_modulo) a b)
  | power =>
    exact .computed (hnumbers nofun) (arithmetic_computed (fun _ _ => Number.exists_power) a b)
  | _ => cases hop

/-- A sign stands before a number, as an operation on that number alone. -/
theorem operateUnary_computed {op : UnaryOperator} (hop : op.IsSign) (v : Value) :
    Computed v v (v.operateUnary op) := by
  by_cases hv : v.HasNumber
  · obtain ⟨n, hn, hrange⟩ := hv.exists_number
    cases op with
    | plus =>
      rw [operateUnary, hn]
      exact .number hv hv hrange
    | minus =>
      rw [operateUnary, hn]
      exact .number hv hv (Number.isInRange_neg hrange)
    | _ => cases hop
  · have hnone := toNumber_of_not_hasNumber hv
    cases op with
    | plus | minus =>
      rw [operateUnary, hnone]
      exact .left hv
    | _ => cases hop

theorem Computed.error_kind {cause : ExpressionCause} (h : Computed a b (.error cause)) :
    cause.kind = .runtimeTypeError := by
  cases h <;> rfl

theorem Calculated.error_kind {op : BinaryOperator} {cause : ExpressionCause}
    (h : Calculated op a b (.error cause)) : cause.kind = .runtimeTypeError := by
  cases h with
  | computed _ h => exact h.error_kind

end Value

namespace Evaluator

variable {σ : Type} {ev : Evaluator σ} {depth : ℕ} {left right : Expr} {a b : Value}
  {start middle last : σ}

open Value (Computed Calculated)

@[simp]
theorem run_result {α : Type} (ev : Evaluator σ) (outcome : Except ExpressionCause α) (s : σ) :
    (ev.result outcome).run.run s = (outcome.mapError (.inSource ev.source), s) := by
  cases outcome <;> rfl

end Evaluator

end SceneTemplates
