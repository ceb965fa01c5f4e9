import SceneTemplates.Functions.Apply
import SceneTemplates.Proofs.CalculatedValues
import SceneTemplates.Proofs.NumeralValues

/-!
# Rounded decimals

Rounding to units, tens, hundreds and so on takes a number to the nearest multiple, and a number
half-way between two multiples to the greater one. It is the magnitude that is rounded, by a rule
that depends on the sign; both rules come to one floor, from which the order and the shifts by
multiples follow.
-/
namespace SceneTemplates

namespace Rounding

open DecimalForm (tenPow tenPow_pos tenPow_add tenPow_le tenPow_lt pointOf pointOf_bounds)

variable {m q r : ℚ} {d : ℤ} {x y : Number}

/-! ## The two rules -/

theorem whole_bounds (hm : 0 ≤ m) : (m.floor.toNat : ℚ) ≤ m ∧ m < m.floor.toNat + 1 := by
  have hwhole : (m.floor.toNat : ℤ) = ⌊m⌋ := Int.toNat_of_nonneg (Int.floor_nonneg.2 hm)
  have hcast : (m.floor.toNat : ℚ) = ⌊m⌋ := by exact_mod_cast congrArg (Int.cast (R := ℚ)) hwhole
  rw [hcast]
  exact ⟨Int.floor_le m, Int.lt_floor_add_one m⟩

@[simp] theorem nearest_up (hm : 0 ≤ m) : (HalfRule.up.nearest m : ℤ) = ⌊m + 1 / 2⌋ := by
  obtain ⟨hlow, hhigh⟩ := whole_bounds hm
  symm
  rw [Int.floor_eq_iff]
  simp only [HalfRule.nearest]
  split_ifs with hless hmore <;> push_cast <;> constructor <;> linarith

@[simp] theorem nearest_down (hm : 0 ≤ m) : (HalfRule.down.nearest m : ℤ) = ⌈m - 1 / 2⌉ := by
  obtain ⟨hlow, hhigh⟩ := whole_bounds hm
  symm
  rw [Int.ceil_eq_iff]
  simp only [HalfRule.nearest]
  split_ifs with hless hmore <;> push_cast <;> constructor <;> linarith

@[simp] theorem absolute_eq_abs (q : ℚ) : absolute q = |q| := by
  unfold absolute
  split_ifs with hsign
  · exact (abs_of_neg hsign).symm
  · exact (abs_of_nonneg (not_lt.1 hsign)).symm

/-- The rounded magnitude with its sign is the floor of the number half a unit above. -/
theorem signed_units (q : ℚ) (d : ℤ) :
    (if q < 0 then -(units q d : ℤ) else units q d) = ⌊q * tenPow d + 1 / 2⌋ := by
  have hunit := tenPow_pos d
  have hsize : 0 ≤ |q| * tenPow d := mul_nonneg (abs_nonneg q) hunit.le
  unfold units halfRule
  rw [absolute_eq_abs]
  by_cases hsign : q < 0
  · rw [if_pos hsign, if_neg (not_le.2 hsign)]
    calc -((HalfRule.down.nearest (|q| * tenPow d) : ℕ) : ℤ)
        = -⌈|q| * tenPow d - 1 / 2⌉ := by rw [nearest_down hsize]
      _ = ⌊-(|q| * tenPow d - 1 / 2)⌋ := Int.floor_neg.symm
      _ = ⌊q * tenPow d + 1 / 2⌋ := by
          rw [abs_of_neg hsign]
          congr 1
          ring
  · have hnonneg := not_lt.1 hsign
    rw [if_neg hsign, if_pos hnonneg]
    rw [abs_of_nonneg hnonneg] at hsize ⊢
    exact nearest_up hsize

/-! ## Units of ten and more -/

/-- The number of units that a number is rounded to. -/
def multiple (q : ℚ) (unit : ℤ) : ℤ := ⌊q / unit + 1 / 2⌋

theorem tenPow_of_nonpos (hd : d ≤ 0) : tenPow d = ((10 ^ d.natAbs : ℤ) : ℚ)⁻¹ := by
  obtain ⟨n, rfl⟩ := Int.exists_eq_neg_ofNat hd
  rw [tenPow, zpow_neg, zpow_natCast, Int.natAbs_neg, Int.natAbs_natCast]
  push_cast
  rfl

theorem floor_eq_multiple (hd : d ≤ 0) :
    ⌊q * tenPow d + 1 / 2⌋ = multiple q (10 ^ d.natAbs) := by
  rw [tenPow_of_nonpos hd, ← div_eq_mul_inv, multiple]

/-- A number whose first digit is below the tenths of the unit is rounded to zero. -/
theorem multiple_of_far (hd : d ≤ 0) (hq : q ≠ 0) (h : leadingPlace q + d < 0) :
    multiple q (10 ^ d.natAbs) = 0 := by
  have hunit := tenPow_pos d
  have hless : |q * tenPow d| < 1 / 10 := by
    calc |q * tenPow d| = |q| * tenPow d := by rw [abs_mul, abs_of_pos hunit]
      _ < tenPow (leadingPlace q) * tenPow d := by
          refine mul_lt_mul_of_pos_right ?_ hunit
          rw [leadingPlace, absolute_eq_abs]
          exact (pointOf_bounds (abs_pos.2 hq)).2
      _ = tenPow (leadingPlace q + d) := (tenPow_add _ _).symm
      _ ≤ tenPow (-1) := tenPow_le.2 (by omega)
      _ = 1 / 10 := by norm_num [tenPow]
  obtain ⟨hlow, hhigh⟩ := abs_lt.1 hless
  rw [← floor_eq_multiple hd, Int.floor_eq_iff]
  constructor <;> push_cast <;> linarith

/-- No double has as many digits before the point as a rounded decimal may have. -/
theorem leadingPlace_le (hq : q ≠ 0) (hsize : |q| ≤ Double.maxFinite) : leadingPlace q ≤ 400 := by
  have hless : tenPow (leadingPlace q - 1) < tenPow 400 := by
    calc tenPow (leadingPlace q - 1) ≤ |q| := by
          rw [leadingPlace, absolute_eq_abs]
          exact (pointOf_bounds (abs_pos.2 hq)).1
      _ ≤ Double.maxFinite := hsize
      _ < Double.overflowBound := Double.maxFinite_lt_overflowBound
      _ ≤ tenPow 400 := Numeral.overflowBound_le_tenPow
  have hplace := tenPow_lt.1 hless
  omega

theorem rounded?_eq (negative : Bool) (hexists : unitExists d = true) (hd : d ≤ 0)
    (hsize : |q| ≤ Double.maxFinite) :
    rounded? negative q d = some (.int (multiple q (10 ^ d.natAbs) * 10 ^ d.natAbs)) := by
  unfold rounded?
  by_cases hq : q = 0
  · have hzero : multiple 0 (10 ^ d.natAbs) = 0 := by norm_num [multiple]
    simp [hexists, hq, hd, hzero]
  · have hdigits : ¬ maxDigits < leadingPlace q + d := by
      have hplace := leadingPlace_le hq hsize
      unfold maxDigits
      omega
    by_cases hfar : leadingPlace q + d < 0
    · simp [hexists, hq, hdigits, hfar, hd, multiple_of_far hd hq hfar]
    · have hunits := signed_units q d
      rw [floor_eq_multiple hd] at hunits
      simp only [hexists, hq, hdigits, hfar, hd, hunits, Bool.not_true, Bool.false_eq_true,
        if_false, if_true, Int.pow_eq]

/-- A greater number is not rounded to a smaller multiple. -/
theorem multiple_mono {unit : ℤ} (hunit : 0 < unit) (h : q ≤ r) :
    multiple q unit ≤ multiple r unit := by
  have hpos : (0 : ℚ) < unit := by exact_mod_cast hunit
  unfold multiple
  gcongr

/-- A number shifted by units is rounded to the multiple shifted by as many. -/
@[simp] theorem multiple_add_mul {unit : ℤ} (hunit : 0 < unit) (k : ℤ) :
    multiple (q + unit * k) unit = multiple q unit + k := by
  have hne : (unit : ℚ) ≠ 0 := by exact_mod_cast hunit.ne'
  have hshift : (q + unit * k) / unit + 1 / 2 = q / unit + 1 / 2 + k := by
    field_simp
    ring
  rw [multiple, hshift, Int.floor_add_intCast, multiple]

/-! ## Arguments -/

/-- A number within the range of doubles with its exact value. -/
structure IsArgument (x : Number) (q : ℚ) : Prop where
  range : x.IsInRange
  value : x.toExtended? = some (.rational q)

theorem IsArgument.abs_le (h : IsArgument x q) : |q| ≤ Double.maxFinite := by
  obtain ⟨hrange, hvalue⟩ := h
  cases hrange with
  | int size =>
    cases hvalue
    exact_mod_cast size
  | double x => exact Double.abs_le_maxFinite (Double.toExtended?_eq_rational.1 hvalue)

@[simp] theorem zero_atMost_iff : (Number.int 0).atMost (.int d) = true ↔ 0 ≤ d := by
  simp only [Number.atMost, Number.less, Number.equals, Number.toExtended?, ExtendedRat.less,
    ExtendedRat.rational.injEq, Bool.or_eq_true, decide_eq_true_eq, Int.cast_lt, Int.cast_inj]
  omega

/-- Rounding with no decimals or fewer gives the nearest multiple of the unit. -/
theorem round_eq (hexists : unitExists d = true) (hd : d ≤ 0) (h : IsArgument x q) :
    round (.number x) (.int d) =
      some (.int (multiple q (10 ^ d.natAbs) * 10 ^ d.natAbs)) := by
  have hrounded := fun negative => rounded?_eq negative hexists hd h.abs_le
  obtain ⟨hrange, hvalue⟩ := h
  cases hrange with
  | @int n size =>
    cases hvalue
    by_cases hzero : 0 ≤ d
    · -- An integer without decimals to take away comes back before anything is rounded.
      obtain rfl : d = 0 := le_antisymm hd hzero
      have hwhole : multiple n 1 = n := by
        rw [multiple, Int.cast_one, div_one, Int.floor_eq_iff]
        constructor <;> linarith
      simp [round, Value.asNumber?, hwhole, Value.int]
    · obtain ⟨y, hy, -⟩ := Double.exists_ofInt? size
      have hplaces : ¬ (Number.int 0).atMost (.int d) = true := mt zero_atMost_iff.1 hzero
      simp [round, Value.asNumber?, hplaces, hy, hrounded, Value.int]
  | double y =>
    have hvalue := Double.toExtended?_eq_rational.1 hvalue
    simp [round, Value.asNumber?, hvalue, Arguments.integer?, Value.int, hrounded]

end Rounding

open Rounding

/-- Rounding with no decimals or fewer, down to the least for which a unit exists, gives the
multiple of the unit nearest to the argument, and the greater one of two. It keeps the order of the
arguments, and an argument shifted by some units has a result shifted by as many. -/
theorem GlobalFunction.apply_round_eq_floor {x : Number} {q : ℚ} {d : ℤ} (hleast : -999999 ≤ d)
    (hd : d ≤ 0) (hx : IsArgument x q) :
    ∃ n : ℤ, round.apply [.number x, .int d] = .ok (.int n) ∧
      n = 10 ^ d.natAbs * ⌊q / 10 ^ d.natAbs + 1 / 2⌋ ∧
      (∀ y r, IsArgument y r → q ≤ r →
        ∃ k : ℤ, round.apply [.number y, .int d] = .ok (.int k) ∧ n ≤ k) ∧
      ∀ y (m : ℤ), IsArgument y (q + 10 ^ d.natAbs * m) →
        round.apply [.number y, .int d] = .ok (.int (n + 10 ^ d.natAbs * m)) := by
  have hexists : unitExists d = true := by
    unfold unitExists
    simp only [Bool.and_eq_true, decide_eq_true_eq]
    omega
  have hunit : (0 : ℤ) < 10 ^ d.natAbs := by positivity
  have hresult : ∀ {y r}, IsArgument y r → round.apply [.number y, .int d] =
      .ok (.int (multiple r (10 ^ d.natAbs) * 10 ^ d.natAbs)) := fun hy =>
    congrArg Arguments.ofOption (round_eq hexists hd hy)
  refine ⟨multiple q (10 ^ d.natAbs) * 10 ^ d.natAbs, hresult hx, ?floor, ?order, ?shift⟩
  case floor =>
    rw [mul_comm, multiple]
    push_cast
    rfl
  case order =>
    intro y r hy hle
    refine ⟨_, hresult hy, ?_⟩
    exact mul_le_mul_of_nonneg_right (multiple_mono hunit hle) hunit.le
  case shift =>
    intro y m hy
    have hmultiple := multiple_add_mul (q := q) hunit m
    push_cast at hmultiple
    rw [hresult hy, hmultiple]
    congr 2
    ring

/-- Twenty-five below zero is half-way between two tens and goes up; four tens above it, the result
is four tens above. -/
theorem GlobalFunction.apply_round_tens :
    round.apply [.number (.int (-25)), .int (-1)] = .ok (.int (-20)) ∧
      round.apply [.number (.int 15), .int (-1)] = .ok (.int 20) ∧
      ∃ k : ℤ, round.apply [.number (.int 15), .int (-1)] = .ok (.int k) ∧ -20 ≤ k := by
  have hbelow : IsArgument (.int (-25)) (-25) := ⟨.int (by decide +kernel), rfl⟩
  have habove : IsArgument (.int 15) 15 := ⟨.int (by decide +kernel), rfl⟩
  obtain ⟨n, hn, hfloor, horder, hshift⟩ :=
    GlobalFunction.apply_round_eq_floor (d := -1) (by decide) (by decide) hbelow
  obtain rfl : n = -20 := by
    rw [hfloor]
    norm_num [Int.floor_eq_iff]
  refine ⟨hn, ?_, horder _ 15 habove (by norm_num)⟩
  exact hshift _ 4 (by norm_num; exact habove)

end SceneTemplates
