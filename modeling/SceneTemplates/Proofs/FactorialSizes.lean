import Mathlib.Analysis.Complex.ExponentialBounds
import Mathlib.Analysis.SpecialFunctions.Log.Basic
import Mathlib.Data.Nat.Factorial.BigOperators
import SceneTemplates.Functions.Integer

/-!
# Sizes of factorials

The counts of choices are quotients of factorials, so their logarithms are differences of those of
factorials. These are compared with the spread of a number, which is that number times its bits: it
is more than the logarithm of the factorial, but not by much.
-/
namespace SceneTemplates

open scoped Nat

namespace Number

variable {n k e : ℕ}

@[simp] theorem lt_bitLength_iff : e < bitLength n ↔ 2 ^ e ≤ n := by
  unfold bitLength
  split
  · next h =>
    obtain rfl : n = 0 := by exact_mod_cast h
    simp
  · next h =>
    have hn : n ≠ 0 := by exact_mod_cast h
    rw [Int.natAbs_natCast, Nat.lt_succ_iff, Nat.le_log2 hn]

theorem lt_two_pow_bitLength (n : ℕ) : n < 2 ^ bitLength n :=
  not_le.1 (mt lt_bitLength_iff.2 (lt_irrefl _))

@[simp] theorem bitLength_le_iff : bitLength n ≤ e ↔ n < 2 ^ e := by
  rw [← not_lt, lt_bitLength_iff, not_le]

theorem bitLength_mono (h : k ≤ n) : bitLength k ≤ bitLength n :=
  bitLength_le_iff.2 (h.trans_lt (lt_two_pow_bitLength n))

theorem log_le_bitLength (hn : n ≠ 0) : Real.log n ≤ bitLength n * Real.log 2 := by
  have hpos : (0 : ℝ) < n := by exact_mod_cast Nat.pos_of_ne_zero hn
  rw [← Real.log_pow]
  exact Real.log_le_log hpos (by exact_mod_cast (lt_two_pow_bitLength n).le)

theorem mul_log_two_le (h : e < bitLength n) : e * Real.log 2 ≤ Real.log n := by
  rw [← Real.log_pow]
  exact Real.log_le_log (by positivity) (by exact_mod_cast lt_bitLength_iff.1 h)

end Number

namespace Integer

open Number

variable {n k : ℕ}

/-! ## Counts as quotients -/

theorem factorial_mul_risingProduct (low count : ℕ) :
    low ! * risingProduct low count = (low + count)! := by
  induction count with
  | zero => exact Nat.mul_one _
  | succ count ih =>
    rw [risingProduct, ← Nat.mul_assoc, ih, Nat.mul_comm, ← Nat.add_assoc, Nat.factorial_succ]

@[simp] theorem factorial_eq (n : ℕ) : factorial n = n ! := by
  have hproduct := factorial_mul_risingProduct 0 n
  rwa [Nat.factorial_zero, Nat.one_mul, Nat.zero_add] at hproduct

theorem permutations_mul (h : k ≤ n) : permutations n k * (n - k)! = n ! := by
  have hproduct := factorial_mul_risingProduct (n - k) k
  rw [Nat.sub_add_cancel h] at hproduct
  rw [permutations, if_neg (by omega), Nat.mul_comm, hproduct]

/-- The fewer of the chosen and the left things are counted. -/
@[simp] theorem combinations_eq_choose (h : k ≤ n) : combinations n k = n.choose k := by
  have hfew : min k (n - k) ≤ n := by omega
  have hproduct := factorial_mul_risingProduct (n - min k (n - k)) (min k (n - k))
  rw [Nat.sub_add_cancel hfew] at hproduct
  have hcount : combinations n k = n.choose (min k (n - k)) := by
    rw [combinations, if_neg (by omega), Nat.choose_eq_factorial_div_factorial hfew, ← hproduct]
    dsimp only
    rw [factorial_eq, Nat.mul_comm, Nat.mul_div_mul_right _ _ (Nat.factorial_pos _)]
  obtain hmin | hmin := min_choice k (n - k)
  · rw [hcount, hmin]
  · rw [hcount, hmin, Nat.choose_symm h]

theorem combinations_mul (h : k ≤ n) : combinations n k * (k ! * (n - k)!) = n ! := by
  rw [combinations_eq_choose h, ← Nat.mul_assoc, Nat.choose_mul_factorial_mul_factorial h]

/-! ## Logarithms -/

noncomputable def logFactorial (n : ℕ) : ℝ := Real.log (n ! : ℕ)

theorem factorial_pos_real (n : ℕ) : (0 : ℝ) < (n ! : ℕ) := by exact_mod_cast Nat.factorial_pos n

/-- The logarithm of a factor of a factorial. -/
theorem log_factor {count rest : ℕ} (h : count * rest = n !) :
    Real.log count = logFactorial n - Real.log rest := by
  have hproduct : (count : ℝ) * rest = (n ! : ℕ) := by exact_mod_cast h
  have hne : (count : ℝ) * rest ≠ 0 := hproduct ▸ (factorial_pos_real n).ne'
  rw [logFactorial, ← hproduct, Real.log_mul (left_ne_zero_of_mul hne) (right_ne_zero_of_mul hne),
    add_sub_cancel_right]

theorem log_permutations (h : k ≤ n) :
    Real.log (permutations n k) = logFactorial n - logFactorial (n - k) :=
  log_factor (permutations_mul h)

theorem log_combinations (h : k ≤ n) :
    Real.log (combinations n k) = logFactorial n - logFactorial k - logFactorial (n - k) := by
  rw [log_factor (combinations_mul h), Nat.cast_mul,
    Real.log_mul (factorial_pos_real k).ne' (factorial_pos_real (n - k)).ne', sub_add_eq_sub_sub]
  rfl

theorem logFactorial_nonneg (n : ℕ) : 0 ≤ logFactorial n :=
  Real.log_nonneg (by exact_mod_cast Nat.factorial_pos n)

theorem logFactorial_mono {a b : ℕ} (h : a ≤ b) : logFactorial a ≤ logFactorial b :=
  Real.log_le_log (factorial_pos_real a) (by exact_mod_cast Nat.factorial_le h)

/-- Each further factor is at most the last one. -/
theorem logFactorial_sub_le {a b : ℕ} (h : a ≤ b) :
    logFactorial b - logFactorial a ≤ (b - a : ℝ) * Real.log b := by
  obtain ⟨c, rfl⟩ := Nat.exists_eq_add_of_le h
  obtain hzero | hpos := Nat.eq_zero_or_pos (a + c)
  · obtain ⟨rfl, rfl⟩ : a = 0 ∧ c = 0 := by omega
    simp
  have hfactors : (a + c)! ≤ a ! * (a + c) ^ c := by
    rw [← Nat.factorial_mul_ascFactorial]
    exact Nat.mul_le_mul_left _ (Nat.ascFactorial_le_pow_add a c)
  have hreal : (((a + c)! : ℕ) : ℝ) ≤ (a ! : ℕ) * ((a + c : ℕ) : ℝ) ^ c := by
    exact_mod_cast hfactors
  have hbase : (0 : ℝ) < ((a + c : ℕ) : ℝ) := by exact_mod_cast hpos
  have hlog := Real.log_le_log (factorial_pos_real _) hreal
  rw [Real.log_mul (factorial_pos_real a).ne' (pow_pos hbase c).ne', Real.log_pow] at hlog
  have hdifference : ((a + c : ℕ) : ℝ) - a = c := by
    push_cast
    ring
  rw [hdifference]
  unfold logFactorial
  linarith

/-! ## The spread -/

/-- A number as often as it has bits. -/
def spread (n : ℕ) : ℕ := n * bitLength n

theorem spread_mono (h : k ≤ n) : spread k ≤ spread n := Nat.mul_le_mul h (bitLength_mono h)

/-- A product of numbers with so many bits has no more than all of these. -/
theorem logFactorial_le_spread (n : ℕ) : logFactorial n ≤ spread n := by
  obtain rfl | hn := Nat.eq_zero_or_pos n
  · simp [logFactorial, spread]
  have hfactors := logFactorial_sub_le (Nat.zero_le n)
  have hzero : logFactorial 0 = 0 := by simp [logFactorial]
  have hbits : (bitLength n : ℝ) * Real.log 2 ≤ bitLength n :=
    mul_le_of_le_one_right (Nat.cast_nonneg _) (by linarith [Real.log_two_lt_d9])
  have hpart := mul_le_mul_of_nonneg_left ((log_le_bitLength hn.ne').trans hbits)
    (Nat.cast_nonneg (α := ℝ) n)
  rw [hzero, sub_zero, Nat.cast_zero, sub_zero] at hfactors
  rw [spread, Nat.cast_mul]
  exact hfactors.trans hpart

/-- The upper half of the factors have almost as many bits as the last one. -/
theorem spread_le_logFactorial (hn : 8 ≤ n) : spread n ≤ 8 * logFactorial n := by
  obtain ⟨e, he⟩ := Nat.exists_eq_add_of_le' (show 4 ≤ bitLength n from lt_bitLength_iff.2 hn)
  have hhalf : 2 ^ (e + 2) ≤ n / 2 := by
    have hlow := lt_bitLength_iff.1 (show e + 3 < bitLength n by omega)
    rw [pow_succ] at hlow
    omega
  have hfactors : (n / 2) ^ (n - n / 2) ≤ n ! :=
    (Nat.le_mul_of_pos_left _ (Nat.factorial_pos _)).trans
      (Nat.factorial_mul_pow_sub_le_factorial (Nat.div_le_self n 2))
  have hpos : (0 : ℝ) < ((n / 2 : ℕ) : ℝ) := by exact_mod_cast (by omega : 0 < n / 2)
  have hreal : ((n / 2 : ℕ) : ℝ) ^ (n - n / 2) ≤ (n ! : ℕ) := by exact_mod_cast hfactors
  have hlog := Real.log_le_log (pow_pos hpos _) hreal
  rw [Real.log_pow] at hlog
  have hbase : ((e + 2 : ℕ) : ℝ) * Real.log 2 ≤ Real.log ((n / 2 : ℕ) : ℝ) := by
    rw [← Real.log_pow]
    exact Real.log_le_log (by positivity) (by exact_mod_cast hhalf)
  have hupper : (n : ℝ) / 2 ≤ ((n - n / 2 : ℕ) : ℝ) := by
    rw [div_le_iff₀ (by norm_num)]
    exact_mod_cast (by omega : n ≤ (n - n / 2) * 2)
  have hexponent : (e : ℝ) + 4 ≤ 8 * (1 / 2 * (((e + 2 : ℕ) : ℝ) * Real.log 2)) := by
    have htwo := Real.log_two_gt_d9
    have hnonneg : (0 : ℝ) ≤ e := Nat.cast_nonneg e
    push_cast
    nlinarith
  calc (spread n : ℝ) = n * (e + 4) := by
        rw [spread, he]
        push_cast
        ring
    _ ≤ n * (8 * (1 / 2 * (((e + 2 : ℕ) : ℝ) * Real.log 2))) :=
        mul_le_mul_of_nonneg_left hexponent (Nat.cast_nonneg n)
    _ = 8 * (n / 2 * (((e + 2 : ℕ) : ℝ) * Real.log 2)) := by ring
    _ ≤ 8 * (((n - n / 2 : ℕ) : ℝ) * Real.log ((n / 2 : ℕ) : ℝ)) := by
        refine mul_le_mul_of_nonneg_left (mul_le_mul hupper hbase ?_ (Nat.cast_nonneg _))
          (by norm_num)
        positivity
    _ ≤ 8 * logFactorial n := mul_le_mul_of_nonneg_left hlog (by norm_num)

end Integer

end SceneTemplates
