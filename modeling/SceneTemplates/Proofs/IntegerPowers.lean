import SceneTemplates.Proofs.EqualNumbers
import SceneTemplates.Proofs.FactorialSizes

/-!
# Integer powers

The power of two integers is computed exactly while the estimate of its bits stays within the limit,
and as a power of doubles beyond it. Beyond the estimate a base of at least two has a power far out
of the range of doubles, with the sign that the integers give. A smaller base has a power that is a
double, and its sign is that of the rounded exponent: an odd exponent above `2 ^ 53` is rounded to an
even one.
-/
namespace SceneTemplates

namespace Double

variable {q base exponent : ℚ} {n k : ℤ} {x y : Double}

/-! ## The double of an integer -/

/-- What a number from a power of two on is rounded to is no smaller than that power. -/
theorem twoPow_le_rounded (hk : 0 ≤ k) (h : twoPow k ≤ q) :
    twoPow k ≤ roundHalfEven (q / twoPow (lastPlace q)) * twoPow (lastPlace q) := by
  have hq : 0 < q := (twoPow_pos k).trans_le h
  obtain ⟨leading, -, hhigh, hplace⟩ := exists_leading hq
  obtain ⟨-, -, hfull⟩ := significand_bounds hq
  have hleading : k < leading + 1 := twoPow_lt.1 (h.trans_lt hhigh)
  have hbits : 2 ^ 52 ≤ roundHalfEven (q / twoPow (lastPlace q)) := by
    obtain hfull | hleast := hfull
    · exact hfull
    · omega
  calc twoPow k ≤ twoPow (52 + lastPlace q) := twoPow_le.2 (by omega)
    _ = 2 ^ 52 * twoPow (lastPlace q) := twoPow_add _ _
    _ ≤ roundHalfEven (q / twoPow (lastPlace q)) * twoPow (lastPlace q) :=
        mul_le_mul_of_nonneg_right (by exact_mod_cast hbits) (twoPow_pos _).le

/-- The sign and the size of the double of an integer. -/
structure HasSize (n : ℤ) (x : Double) (size : ℤ) : Prop where
  abs : x.abs.toRat? = some (size : ℚ)
  toRat? : x.toRat? = some ((if n < 0 then -size else size : ℤ) : ℚ)
  isNegative : x.isNegative = decide (n < 0)
  rounds : RoundsTo |(n : ℚ)| size
  reaches : ∀ k : ℤ, 0 ≤ k → twoPow k ≤ |(n : ℚ)| → twoPow k ≤ size

theorem exists_hasSize (hn : n ≠ 0) (h : ofInt? n = some x) : ∃ size, HasSize n x size := by
  have hpos : (0 : ℚ) < |(n : ℚ)| := abs_pos.2 (Int.cast_ne_zero.2 hn)
  have hsign : decide ((n : ℚ) < 0) = decide (n < 0) := by simp
  obtain ⟨hfinite, hinfinite⟩ := ofMagnitude_eq (decide (n < 0)) hpos
  rw [ofInt?, ofRat_eq, hsign] at h
  by_cases hbound : |(n : ℚ)| < overflowBound
  · obtain ⟨m, e, hcanonical, hform, hvalue⟩ := hfinite hbound
    have hrounds := roundsTo_lastPlace hpos
    obtain ⟨size, hsize⟩ := hrounds.integral |n| Int.cast_abs.symm
    rw [hform] at h
    cases h
    refine ⟨size, ?_, ?_, rfl, hsize ▸ hrounds, fun k hk hle => hsize ▸ twoPow_le_rounded hk hle⟩
    · simp [Double.abs, Double.toRat?, hvalue, hsize]
    · by_cases hn : n < 0 <;> simp [Double.toRat?, hvalue, hsize, hn]
  · rw [hinfinite (not_lt.1 hbound)] at h
    cases h

theorem isOddInteger_of_toRat? {v : ℤ} (hx : x.toRat? = some (v : ℚ)) :
    x.isIntegral = true ∧ x.isOddInteger = (v % 2 != 0) := by
  simp [isIntegral, isOddInteger, hx]

/-- A double from `2 ^ 53` on is an even integer. -/
theorem even_of_le {size : ℤ} (hx : x.abs.toRat? = some (size : ℚ)) (h : 2 ^ 53 ≤ size) :
    size % 2 = 0 := by
  cases x with
  | nan | infinity => cases hx
  | finite negative m e hcanonical =>
    have hvalue : (m : ℚ) * twoPow e = size := Option.some.inj hx
    have hm : (m : ℚ) < size := by
      have hnat : (m : ℤ) < 2 ^ 53 := by exact_mod_cast hcanonical.1
      exact_mod_cast hnat.trans_le h
    have he : 0 < e := by
      by_contra hle
      have hpart : twoPow e ≤ 1 := twoPow_le.2 (not_lt.1 hle)
      have hsize : (m : ℚ) * twoPow e ≤ m := mul_le_of_le_one_right (Nat.cast_nonneg m) hpart
      linarith
    obtain ⟨j, rfl⟩ := Int.eq_succ_of_zero_lt he
    have hhalf : size = 2 * (m * 2 ^ j) := by
      have hunit : twoPow j.succ = ((2 ^ j.succ : ℤ) : ℚ) := twoPow_natCast j.succ
      have hcast : (size : ℚ) = ((m * 2 ^ j.succ : ℤ) : ℚ) := by
        rw [← hvalue, Int.cast_mul, ← hunit]
        rfl
      rw [Int.cast_inj.1 hcast, pow_succ]
      ring
    omega

namespace HasSize

variable {size : ℤ} (h : HasSize n x size)

include h

/-- An integer below `2 ^ 53` is the value of its double. -/
theorem eq_abs (hn : |n| < 2 ^ 53) : size = |n| := by
  have hexact := h.rounds.exact |n| Int.cast_abs.symm (by rwa [abs_abs])
  exact_mod_cast hexact

/-- Whether an integer is odd is lost in its double from `2 ^ 53` on. -/
theorem isOddInteger : x.isIntegral = true ∧ x.isOddInteger = decide (n % 2 = 1 ∧ |n| < 2 ^ 53) := by
  obtain ⟨hintegral, hodd⟩ := isOddInteger_of_toRat? h.toRat?
  refine ⟨hintegral, ?_⟩
  rw [hodd, Bool.eq_iff_iff, bne_iff_ne, decide_eq_true_iff]
  by_cases hn : |n| < 2 ^ 53
  · rw [h.eq_abs hn]
    have hparity : |n| % 2 = n % 2 := by
      obtain habs | habs := abs_choice n <;> omega
    split_ifs <;> omega
  · have hle : twoPow 53 ≤ |(n : ℚ)| := by
      rw [← Int.cast_abs]
      exact Int.cast_le.2 (not_lt.1 hn)
    have hlarge : ((2 ^ 53 : ℤ) : ℚ) ≤ size := h.reaches 53 (by norm_num) hle
    have heven := even_of_le h.abs (Int.cast_le.1 hlarge)
    split_ifs <;> omega

theorem one_le (hn : n ≠ 0) : 1 ≤ size := by
  have hone : ((1 : ℤ) : ℚ) ≤ |(n : ℚ)| := by
    rw [← Int.cast_abs]
    exact Int.cast_le.2 (Int.one_le_abs hn)
  have hsize : ((1 : ℤ) : ℚ) ≤ size := h.reaches 0 (le_refl 0) hone
  exact Int.cast_le.1 hsize

/-- No integer is rounded to less than its half. -/
theorem abs_le_two_mul (hn : n ≠ 0) : |n| ≤ 2 * size := by
  have hnear := (abs_le.1 h.rounds.near).1
  have hplace : twoPow (-53) ≤ 1 / 4 := by norm_num [twoPow]
  have hleast : twoPow (-1075) ≤ twoPow (-53) := twoPow_le.2 (by norm_num)
  have hone : (1 : ℚ) ≤ |(n : ℚ)| := by exact_mod_cast Int.one_le_abs hn
  rw [abs_abs] at hnear
  have hcast : ((|n| : ℤ) : ℚ) ≤ (2 * size : ℤ) := by
    push_cast
    nlinarith
  exact Int.cast_le.1 hcast

end HasSize

/-! ## Powers of doubles -/

/-- The integer part of the logarithm is no smaller than an exponent whose power is reached. -/
theorem le_floorLog2 (hk : 0 ≤ k) (h : twoPow k ≤ q) : k ≤ floorLog2 q := by
  obtain ⟨leading, -, hhigh, hplace⟩ := exists_leading ((twoPow_pos k).trans_le h)
  have hleading : k < leading + 1 := twoPow_lt.1 (h.trans_lt hhigh)
  -- The last place is told from the same logarithm.
  have hlog : lastPlace q = max (floorLog2 q - 52) (-1074) := rfl
  omega

@[simp] theorem powMagnitude_one (x y : Double) :
    powMagnitude 1 exponent x y = .ok (.ofMagnitude false 1) := by
  simp only [powMagnitude, if_pos]

theorem powMagnitude_overflow (hbase : base ≠ 1) (hexponent : 0 ≤ exponent)
    (h : 1024 ≤ floorLog2 base * exponent) (x y : Double) :
    powMagnitude base exponent x y = .error .overflow := by
  simp only [powMagnitude, if_neg hbase, if_pos hexponent, if_pos h]

/-- What a finite double is not. -/
theorem class_of_toRat? (hx : x.toRat? = some q) (hq : q ≠ 0) :
    x.isNaN = false ∧ x.isZero = false := by
  have hzero : x.isZero = false := by
    rw [← Bool.not_eq_true, isZero_iff_of_toRat? hx]
    exact hq
  cases x with
  | nan | infinity => cases hx
  | finite => exact ⟨rfl, hzero⟩

/-- The power with an integral exponent other than zero. -/
theorem pow_of_isIntegral (hx : x.abs.toRat? = some base) (hy : y.toRat? = some exponent)
    (hbase : base ≠ 0) (hexponent : exponent ≠ 0) (hintegral : y.isIntegral = true) :
    x.pow y = if x.isNegative then
      (powMagnitude base exponent x.abs y).map fun r => if y.isOddInteger then r.neg else r
    else powMagnitude base exponent x y := by
  obtain ⟨hynumber, hyzero⟩ := class_of_toRat? hy hexponent
  have hxnumber : x.isNaN = false := by
    cases x with
    | nan | infinity => cases hx
    | finite => rfl
  unfold pow
  simp only [hyzero, hxnumber, hynumber, hx, hy, hbase, hintegral, Bool.false_eq_true, if_false,
    if_true]

theorem zero_pow (hy : y.toRat? = some exponent) (hexponent : 0 < exponent) :
    (zero false).pow y = .ok (zero false) := by
  obtain ⟨hynumber, hyzero⟩ := class_of_toRat? hy hexponent.ne'
  have hsize : (zero false).abs.toRat? = some 0 := by simp [zero, Double.abs, Double.toRat?]
  unfold pow
  simp only [hyzero, hynumber, hsize, hy, not_lt.2 hexponent.le, Bool.false_eq_true, if_false,
    if_true, ite_self]
  rfl

end Double

namespace Number

variable {a b n : ℤ}

/-! ## Bits of integers -/

@[simp] theorem bitLength_natAbs (n : ℤ) : bitLength (n.natAbs : ℤ) = bitLength n := by
  simp only [bitLength, Int.natAbs_natCast, Int.natCast_eq_zero, Int.natAbs_eq_zero]

theorem lt_bitLength_iff_abs {e : ℕ} : e < bitLength n ↔ 2 ^ e ≤ |n| := by
  rw [← bitLength_natAbs, lt_bitLength_iff, Int.abs_eq_natAbs]
  norm_cast

/-! ## The two ways to compute a power -/

theorem exists_hasSize (h : (int n).IsInRange) (hn : n ≠ 0) :
    ∃ x size, (int n).toDouble = .ok x ∧ Double.HasSize n x size := by
  obtain ⟨x, hx, -⟩ := Double.exists_ofInt? (isInRange_int_iff.1 h)
  obtain ⟨size, hsize⟩ := Double.exists_hasSize hn hx
  exact ⟨x, size, by simp only [toDouble, hx], hsize⟩

/-- The estimate of the bits of a power is beyond the limit. -/
def IsBeyondEstimate (a b : ℤ) : Prop := maxPowerBits < max (bitLength a) 1 * b.toNat

theorem IsBeyondEstimate.pos (h : IsBeyondEstimate a b) : 0 < b := by
  by_contra hb
  rw [IsBeyondEstimate, Int.toNat_of_nonpos (not_lt.1 hb), Nat.mul_zero] at h
  exact Nat.not_lt_zero _ h

theorem IsBeyondEstimate.bits (h : IsBeyondEstimate a b) (hsize : 2 ≤ |a|) :
    1 < bitLength a ∧ maxPowerBits < bitLength a * b.toNat := by
  have hbits : 1 < bitLength a := lt_bitLength_iff_abs.2 hsize
  rw [IsBeyondEstimate, max_eq_left hbits.le] at h
  exact ⟨hbits, h⟩

theorem power_exact (hb : 0 ≤ b) (h : ¬ IsBeyondEstimate a b) :
    power (int a) (int b) = .ok (int (a ^ b.toNat)).collapse :=
  if_pos ⟨hb, not_lt.1 h⟩

theorem power_of_isBeyondEstimate (h : IsBeyondEstimate a b) :
    power (int a) (int b) = powerOfDoubles (int a) (int b) :=
  if_neg fun hfits => not_lt.2 hfits.2 h

theorem powerOfDoubles_eq {x y : Double} (hx : (int a).toDouble = .ok x)
    (hy : (int b).toDouble = .ok y) :
    powerOfDoubles (int a) (int b) = .ok (double (match x.pow y with
      | .ok r => r
      | .error .divisionByZero => .infinity false
      | .error .overflow => .infinity ((int a).less (int 0) && (int b).isOdd)
      | .error .notReal => .undetermined)) := by
  simp only [powerOfDoubles, hx, hy, bind, Except.bind]
  cases x.pow y with
  | ok r => rfl
  | error fault => cases fault <;> rfl

/-! ## Powers beyond the estimate -/

/-- The sign of a power that is beyond the range of doubles. -/
theorem less_and_isOdd (a b : ℤ) :
    ((int a).less (int 0) && (int b).isOdd) = decide (a < 0 ∧ b % 2 = 1) := by
  have hless : (int a).less (int 0) = decide (a < 0) := by
    simp [less, toExtended?, ExtendedRat.less]
  have hodd : (int b).isOdd = decide (b % 2 = 1) := by
    rw [Bool.eq_iff_iff, isOdd, bne_iff_ne, decide_eq_true_iff]
    omega
  rw [hless, hodd, Bool.decide_and]

section Beyond

variable (hb : (int b).IsInRange)

include hb

/-- The double of a positive exponent. -/
theorem exists_exponent (hpos : 0 < b) :
    ∃ (y : Double) (exponent : ℤ), (int b).toDouble = .ok y ∧ y.toRat? = some (exponent : ℚ) ∧
      y.isIntegral = true ∧ y.isOddInteger = decide (b % 2 = 1 ∧ b < 2 ^ 53) ∧
      0 < exponent ∧ b ≤ 2 * exponent := by
  obtain ⟨y, exponent, hy, hsize⟩ := exists_hasSize hb hpos.ne'
  obtain ⟨hintegral, hodd⟩ := hsize.isOddInteger
  have hvalue := hsize.toRat?
  have hleast := hsize.one_le hpos.ne'
  have hhalf := hsize.abs_le_two_mul hpos.ne'
  rw [abs_of_pos hpos] at hodd hhalf
  rw [if_neg (not_lt.2 hpos.le)] at hvalue
  exact ⟨y, exponent, hy, hvalue, hintegral, hodd, hleast, hhalf⟩

theorem power_zero (hbeyond : IsBeyondEstimate 0 b) :
    power (int 0) (int b) = .ok (double (.zero false)) := by
  obtain ⟨y, exponent, hy, hvalue, -, -, hpos, -⟩ := exists_exponent hb hbeyond.pos
  have hx : (int 0).toDouble = .ok (.zero false) := rfl
  rw [power_of_isBeyondEstimate hbeyond, powerOfDoubles_eq hx hy,
    Double.zero_pow hvalue (by exact_mod_cast hpos)]

variable (hbeyond : IsBeyondEstimate a b)

include hbeyond

/-- A base of size one: the parity of the exponent counts below `2 ^ 53` only. -/
theorem power_unit (hunit : |a| = 1) :
    power (int a) (int b) = .ok (double
      (if a < 0 ∧ b % 2 = 1 ∧ b < 2 ^ 53 then (Double.ofMagnitude false 1).neg
        else Double.ofMagnitude false 1)) := by
  have ha : a ≠ 0 := by
    rintro rfl
    cases hunit
  obtain ⟨x, base, hx, hbase⟩ := exists_hasSize (isInRange_small hunit.le) ha
  obtain ⟨y, exponent, hy, hvalue, hintegral, hodd, hpos, -⟩ := exists_exponent hb hbeyond.pos
  have hone := hbase.abs
  rw [hbase.eq_abs (by omega), hunit, Int.cast_one] at hone
  rw [power_of_isBeyondEstimate hbeyond, powerOfDoubles_eq hx hy,
    Double.pow_of_isIntegral hone hvalue one_ne_zero (by exact_mod_cast hpos.ne') hintegral,
    Double.powMagnitude_one, Double.powMagnitude_one, hbase.isNegative, hodd]
  by_cases hneg : a < 0
  · simp [hneg, Except.map]
  · simp [hneg]

variable (ha : (int a).IsInRange) (hsize : 2 ≤ |a|)

include hsize

omit hb in
/-- The power of a larger base has many bits. -/
theorem lt_abs_pow : Double.maxFinite < |a ^ b.toNat| := by
  obtain ⟨hbits, hestimate⟩ := hbeyond.bits hsize
  have hexponent : 1024 ≤ (bitLength a - 1) * b.toNat := by
    have hhalf : bitLength a ≤ 2 * (bitLength a - 1) := by omega
    have hproduct := Nat.mul_le_mul_right b.toNat hhalf
    rw [maxPowerBits] at hestimate
    rw [Nat.mul_assoc] at hproduct
    omega
  calc Double.maxFinite < 2 ^ 1024 := by decide +kernel
    _ ≤ 2 ^ ((bitLength a - 1) * b.toNat) := pow_le_pow_right₀ (by norm_num) hexponent
    _ = (2 ^ (bitLength a - 1)) ^ b.toNat := pow_mul _ _ _
    _ ≤ |a| ^ b.toNat :=
        pow_le_pow_left₀ (by positivity) (lt_bitLength_iff_abs.1 (by omega)) _
    _ = |a ^ b.toNat| := (abs_pow a _).symm

include ha

/-- A larger base: the power of the doubles is beyond the range too. -/
theorem power_large :
    power (int a) (int b) = .ok (double (.infinity (decide (a < 0 ∧ b % 2 = 1)))) := by
  obtain ⟨hbits, hestimate⟩ := hbeyond.bits hsize
  have hne : a ≠ 0 := by
    rintro rfl
    cases hsize
  obtain ⟨x, base, hx, hbase⟩ := exists_hasSize ha hne
  obtain ⟨y, exponent, hy, hvalue, hintegral, -, hpos, hhalf⟩ := exists_exponent hb hbeyond.pos
  have hfloor : ((bitLength a - 1 : ℕ) : ℤ) ≤ Double.floorLog2 base := by
    refine Double.le_floorLog2 (Int.natCast_nonneg _) (hbase.reaches _ (Int.natCast_nonneg _) ?_)
    rw [Double.twoPow_natCast, ← Int.cast_abs]
    exact Int.cast_le.2 (lt_bitLength_iff_abs.1 (by omega))
  have hlog : 1024 ≤ Double.floorLog2 base * exponent := by
    have hproduct : (4096 : ℤ) < bitLength a * b := by
      rw [← Int.toNat_of_nonneg hbeyond.pos.le]
      exact_mod_cast hestimate
    have hlarge : (bitLength a : ℤ) ≤ 2 * Double.floorLog2 base := by omega
    have hfactor : (bitLength a : ℤ) * b ≤ (2 * Double.floorLog2 base) * (2 * exponent) :=
      mul_le_mul hlarge hhalf hbeyond.pos.le (by omega)
    nlinarith
  have hone : (base : ℚ) ≠ 1 := by
    intro hone
    have hzero : Double.floorLog2 1 = 0 := by decide +kernel
    rw [hone, hzero] at hfloor
    omega
  have hoverflow : ∀ x y, Double.powMagnitude base exponent x y = .error .overflow :=
    Double.powMagnitude_overflow hone (by exact_mod_cast hpos.le) (by exact_mod_cast hlog)
  have hpositive := hbase.one_le hne
  rw [power_of_isBeyondEstimate hbeyond, powerOfDoubles_eq hx hy,
    Double.pow_of_isIntegral hbase.abs hvalue (by exact_mod_cast (by omega : base ≠ 0))
      (by exact_mod_cast hpos.ne') hintegral, hoverflow, hoverflow]
  cases x.isNegative with
  | false => simp [less_and_isOdd]
  | true => simp [Except.map, less_and_isOdd]

end Beyond

/-! ## The value of a power -/

theorem collapse_of_lt_abs (h : Double.maxFinite < |n|) :
    (int n).collapse = double (.infinity (decide (n < 0))) := by
  have hpos := Double.maxFinite_pos
  rw [collapse_int]
  by_cases hn : n < 0
  · rw [abs_of_neg hn] at h
    rw [if_neg (by omega), if_pos (by omega), decide_eq_true hn]
  · rw [abs_of_nonneg (not_lt.1 hn)] at h
    rw [if_pos h, decide_eq_false hn]

@[simp] theorem collapse_equals_self (n : ℤ) : (int n).collapse.equals (int n).collapse = true := by
  have hplace : (int n).toExtended? = some (.rational n) := rfl
  have hcollapse := toExtended?_collapse (int n)
  rw [hplace] at hcollapse
  simp [hcollapse]

theorem odd_toNat_iff (hb : 0 ≤ b) : Odd b.toNat ↔ b % 2 = 1 := by
  rw [Nat.odd_iff]
  omega

theorem pow_toNat_neg_iff (hb : 0 ≤ b) : a ^ b.toNat < 0 ↔ a < 0 ∧ b % 2 = 1 := by
  rw [← odd_toNat_iff hb]
  by_cases hodd : Odd b.toNat
  · rw [hodd.pow_neg_iff, and_iff_left hodd]
  · have hnonneg := (Nat.not_odd_iff_even.1 hodd).pow_nonneg a
    exact iff_of_false (not_lt.2 hnonneg) fun h => hodd h.2

/-- An exponent that is odd and too large for a double to say so. -/
def IsLargeOdd (b : ℤ) : Prop := b % 2 = 1 ∧ 2 ^ 53 < b

/-- A base of size one beyond the estimate: only the sign of a power of minus one may be lost. -/
theorem unit_equals (hb : 0 ≤ b) (hunit : |a| = 1) :
    (double (if a < 0 ∧ b % 2 = 1 ∧ b < 2 ^ 53 then (Double.ofMagnitude false 1).neg
      else Double.ofMagnitude false 1)).equals (int (a ^ b.toNat)).collapse = true ↔
      ¬ (a = -1 ∧ IsLargeOdd b) := by
  have hone : (double (.ofMagnitude false 1)).equals (int 1).collapse = true := by decide +kernel
  have hminus : (double (Double.ofMagnitude false 1).neg).equals (int (-1)).collapse = true := by
    decide +kernel
  have hsign : ¬ (double (.ofMagnitude false 1)).equals (int (-1)).collapse = true := by
    decide +kernel
  unfold IsLargeOdd
  obtain rfl | rfl := (abs_eq zero_le_one).1 hunit
  · simpa using hone
  by_cases hodd : b % 2 = 1
  · rw [((odd_toNat_iff hb).2 hodd).neg_one_pow]
    by_cases hsmall : b < 2 ^ 53
    · rw [if_pos ⟨by norm_num, hodd, hsmall⟩]
      exact iff_of_true hminus (by omega)
    · rw [if_neg fun h => hsmall h.2.2]
      exact iff_of_false hsign (by omega)
  · have heven : Even b.toNat := Nat.not_odd_iff_even.1 ((odd_toNat_iff hb).not.2 hodd)
    rw [heven.neg_one_pow, if_neg fun h => hodd h.2.1]
    exact iff_of_true hone fun h => hodd h.2.1

variable (ha : (int a).IsInRange) (hb : (int b).IsInRange) (hnonneg : 0 ≤ b)

include ha hb hnonneg

/-- The power of two integers, collapsed where it is beyond the finite doubles, unless the base is
minus one and the exponent is odd and too large. -/
theorem exists_power_equals :
    ∃ r, power (int a) (int b) = .ok r ∧
      (r.equals (int (a ^ b.toNat)).collapse = true ↔ ¬ (a = -1 ∧ IsLargeOdd b)) := by
  by_cases hbeyond : IsBeyondEstimate a b
  · have hpos := hbeyond.pos
    obtain hlarge | hunit | hzero : 2 ≤ |a| ∨ |a| = 1 ∨ a = 0 := by
      have hzero : |a| = 0 ↔ a = 0 := abs_eq_zero
      have hsize := abs_nonneg a
      omega
    · have hne : ¬ (a = -1 ∧ IsLargeOdd b) := by
        rintro ⟨rfl, -⟩
        cases hlarge
      have hcollapse := collapse_of_lt_abs (lt_abs_pow hbeyond hlarge)
      refine ⟨_, power_large hb hbeyond ha hlarge, iff_of_true ?_ hne⟩
      have hself := collapse_equals_self (a ^ b.toNat)
      rw [hcollapse] at hself ⊢
      rwa [decide_eq_decide.2 (pow_toNat_neg_iff hnonneg)] at hself ⊢
    · exact ⟨_, power_unit hb hbeyond hunit, unit_equals hnonneg hunit⟩
    · subst hzero
      have hequals : (double (.zero false)).equals (int 0).collapse = true := by decide +kernel
      refine ⟨_, power_zero hb hbeyond, iff_of_true ?_ (by simp)⟩
      rw [zero_pow (by omega)]
      exact hequals
  · have hexcluded : ¬ (a = -1 ∧ IsLargeOdd b) := by
      rintro ⟨rfl, -, hlarge⟩
      refine hbeyond ?_
      rw [IsBeyondEstimate, maxPowerBits, show max (bitLength (-1)) 1 = 1 from rfl]
      omega
    exact ⟨_, power_exact hnonneg hbeyond, iff_of_true (collapse_equals_self _) hexcluded⟩

omit hnonneg in
theorem operate_power {r : Number} (hr : power (int a) (int b) = .ok r) :
    Value.operate .power (.number (int a)) (.number (int b)) = .ok (.number r) := by
  have hvalue : Value.operate .power (.number (int a)) (.number (int b)) =
      Value.arithmetic power (.number (int a)) (.number (int b)) := rfl
  rw [hvalue]
  simp only [Value.arithmetic, Value.toNumber, ha.collapse_eq, hb.collapse_eq, hr, bind,
    Except.bind]

/-- The power of two integers within the range is equal to the exact power, or to the infinity of its
sign if that is beyond the finite doubles, unless the base is minus one and the exponent is an odd
number above `2 ^ 53`. The power is then one, because the exponent is rounded to an even number. -/
theorem power_equals_iff :
    ∃ r, Value.operate .power (.number (int a)) (.number (int b)) = .ok (.number r) ∧
      (r.equals (int (a ^ b.toNat)).collapse = true ↔ ¬ (a = -1 ∧ IsLargeOdd b)) ∧
      (a = -1 ∧ IsLargeOdd b → r.equals (int 1) = true) := by
  obtain ⟨r, hr, hequals⟩ := exists_power_equals ha hb hnonneg
  refine ⟨r, operate_power ha hb hr, hequals, ?_⟩
  rintro ⟨rfl, hodd, hlarge⟩
  have hbeyond : IsBeyondEstimate (-1) b := by
    rw [IsBeyondEstimate, maxPowerBits, show max (bitLength (-1)) 1 = 1 from rfl]
    omega
  have hunit := power_unit hb hbeyond (by norm_num)
  rw [if_neg fun h => by omega, hr] at hunit
  rw [Except.ok.inj hunit]
  decide +kernel

omit ha hb hnonneg in
/-- A negative base with an odd exponent, beyond the range. -/
theorem power_equals_iff_infinite :
    ∃ r, Value.operate .power (.number (int (-7))) (.number (int 5001)) = .ok (.number r) ∧
      r.equals (int ((-7) ^ 5001)).collapse = true := by
  have hsmall : ∀ n : ℤ, |n| ≤ 10000 → (int n).IsInRange := fun n hn =>
    .int (hn.trans (by decide +kernel))
  obtain ⟨r, hr, hequals, -⟩ := power_equals_iff (a := -7) (b := 5001) (hsmall _ (by norm_num))
    (hsmall _ (by norm_num)) (by norm_num)
  exact ⟨r, hr, hequals.2 fun h => absurd h.1 (by norm_num)⟩

omit ha hb hnonneg in
/-- Minus one to the first odd number above `2 ^ 53` is one. -/
theorem power_minusOne_ne :
    ∃ r, Value.operate .power (.number (int (-1))) (.number (int (2 ^ 53 + 1))) = .ok (.number r) ∧
      ¬ r.equals (int ((-1) ^ (2 ^ 53 + 1 : ℤ).toNat)).collapse = true := by
  have hrange : (int (2 ^ 53 + 1)).IsInRange := .int (by decide +kernel)
  have hlarge : IsLargeOdd (2 ^ 53 + 1) := by
    unfold IsLargeOdd
    norm_num
  obtain ⟨r, hr, hequals⟩ := exists_power_equals (a := -1) (isInRange_small (by norm_num)) hrange
    (by norm_num)
  exact ⟨r, operate_power (isInRange_small (by norm_num)) hrange hr,
    fun h => hequals.1 h ⟨rfl, hlarge⟩⟩

end Number

end SceneTemplates
