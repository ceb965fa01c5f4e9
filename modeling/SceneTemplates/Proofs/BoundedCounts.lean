import Mathlib.Analysis.SpecialFunctions.Gamma.Basic
import SceneTemplates.Proofs.FactorialSizes
import SceneTemplates.Proofs.RoundedValues

/-!
# Bounded counts

The limit on exact counts is kept through an estimate of their bits, which is a difference of
rounded logarithms of rounded numbers. Its error is a small part of the spread of the number of
things, so a count that is beyond the limit by a margin is refused. The margin grows with the
spread; for numbers of at most 44 bits it is no more than 64 bits. For much larger ones nothing is
kept: numbers that are rounded to the same double cancel, however many factors lie between them.
-/
namespace SceneTemplates

namespace Double

/-- The error of rounding, bounded by simpler numbers. -/
theorem RoundsTo.near_real {q v : ℚ} (h : RoundsTo q v) :
    |(v : ℝ) - q| ≤ |(q : ℝ)| / 2 ^ 53 + 1 / 2 ^ 60 := by
  have htiny : twoPow (-1075) ≤ twoPow (-60) := twoPow_le.2 (by norm_num)
  have hrat : |v - q| ≤ |q| / 2 ^ 53 + 1 / 2 ^ 60 := by
    refine h.near.trans (add_le_add (le_of_eq ?_) (htiny.trans (le_of_eq ?_)))
    · norm_num [twoPow, div_eq_mul_inv]
    · norm_num [twoPow]
  have hreal := (Rat.cast_le (K := ℝ)).2 hrat
  push_cast at hreal
  exact hreal

end Double

namespace Integer

open Number
open scoped Nat

/-! ## Estimates of factorials -/

/-- A logarithm of the gamma function that is right but for a small part of it, where it is not
infinite. -/
def Accurate (logGamma : Double → Double) : Prop :=
  ∀ (m : ℕ) (x : Double), x.toRat? = some ((m : ℚ) + 1) →
    (logGamma x).isInfinite = true ∨
      ∃ q : ℚ, (logGamma x).toRat? = some q ∧
        |(q : ℝ) - logFactorial m| ≤ 1 / 2 ^ 47 * (1 + logFactorial m)

/-- The value of the double that logarithms are divided by. -/
def logTwoValue : ℚ := 6243314768165359 / 9007199254740992

@[simp] theorem logTwo_toRat? : logTwo.toRat? = some logTwoValue := by decide +kernel

theorem logTwoValue_bounds :
    (0.6931471805 : ℝ) < logTwoValue ∧ (logTwoValue : ℝ) < 0.6931471806 := by
  constructor <;> norm_num [logTwoValue]

/-- A number of bits that stands for a logarithm, but for an error. -/
def Near (b : Double) (target error : ℝ) : Prop :=
  ∃ v : ℚ, b.toRat? = some v ∧ |(v : ℝ) * logTwoValue - target| ≤ error

variable {logGamma : Double → Double} {n k : ℕ} {b b' : Double} {target target' error error' : ℝ}

/-- The argument of an estimate is a number whose factorial is near that of the given one. -/
theorem argument_near {x : Double} (h : Double.ofInt? ((n : ℤ) + 1) = some x) :
    ∃ m : ℕ, x.toRat? = some ((m : ℚ) + 1) ∧
      |logFactorial m - logFactorial n| ≤ 1 / 2 ^ 52 * spread n := by
  obtain ⟨M, hx, hrounds⟩ := Double.ofInt?_rounds h
  by_cases hsmall : n + 1 < 2 ^ 53
  · have hM := hrounds.exact (n + 1) rfl (by rw [abs_of_nonneg (by omega)]; exact_mod_cast hsmall)
    refine ⟨n, ?_, ?_⟩
    · rw [hx, hM]
      push_cast
      rfl
    · rw [sub_self, abs_zero]
      positivity
  -- The number is so large that the error of rounding is a small part of it.
  have hfour : 4 ≤ n := by omega
  clear hsmall
  have hlarge : (4 : ℝ) ≤ n := by exact_mod_cast hfour
  have hpart : (0 : ℝ) ≤ n / 2 ^ 52 := div_nonneg (Nat.cast_nonneg n) (by norm_num)
  have hdistance : |(M : ℝ) - (n + 1)| ≤ n / 2 ^ 52 := by
    have hnear := hrounds.near_real
    push_cast at hnear
    rw [abs_of_nonneg (by linarith : (0 : ℝ) ≤ n + 1)] at hnear
    refine hnear.trans ?_
    rw [div_add_div _ _ (by norm_num) (by norm_num), div_le_div_iff₀ (by norm_num) (by norm_num)]
    nlinarith
  obtain ⟨hbelow, habove⟩ := abs_le.1 hdistance
  have hfew : (n : ℝ) / 2 ^ 52 ≤ n := div_le_self (Nat.cast_nonneg n) (by norm_num)
  obtain ⟨m, rfl⟩ : ∃ m : ℕ, M = m + 1 := by
    have hpositive : (0 : ℝ) < M := by linarith
    have : 0 < M := by exact_mod_cast hpositive
    exact ⟨(M - 1).toNat, by omega⟩
  push_cast at hbelow habove
  refine ⟨m, by rw [hx]; push_cast; rfl, ?_⟩
  have hbits : (3 : ℝ) ≤ bitLength n := by exact_mod_cast lt_bitLength_iff.2 hfour
  have htwo := Real.log_two_lt_d9
  have hlog := log_le_bitLength (by omega : n ≠ 0)
  rw [show 1 / 2 ^ 52 * (spread n : ℝ) = n / 2 ^ 52 * bitLength n by
    rw [spread, Nat.cast_mul]
    ring]
  obtain hle | hle := le_total m n
  · have hlogn : Real.log n ≤ bitLength n := by nlinarith
    rw [abs_sub_comm, abs_of_nonneg (sub_nonneg.2 (logFactorial_mono hle))]
    exact (logFactorial_sub_le hle).trans
      (mul_le_mul (by linarith) hlogn (Real.log_nonneg (by linarith)) hpart)
  · have hreal : (n : ℝ) ≤ m := by exact_mod_cast hle
    have hlogm : Real.log m ≤ bitLength n := by
      calc Real.log m ≤ Real.log (2 * n) := Real.log_le_log (by linarith) (by linarith)
        _ = Real.log 2 + Real.log n := Real.log_mul (by norm_num) (by linarith)
        _ ≤ bitLength n := by nlinarith
    rw [abs_of_nonneg (sub_nonneg.2 (logFactorial_mono hle))]
    exact (logFactorial_sub_le hle).trans
      (mul_le_mul (by linarith) hlogm (Real.log_nonneg (by linarith)) hpart)

theorem logTwoValue_pos : (0 : ℝ) < logTwoValue := by linarith [logTwoValue_bounds.1]

theorem abs_mul_logTwoValue (a : ℝ) : |a * logTwoValue| = |a| * logTwoValue := by
  rw [abs_mul, abs_of_pos logTwoValue_pos]

theorem Near.mono (h : Near b target error) (hle : error ≤ error') : Near b target error' := by
  obtain ⟨v, hv, hnear⟩ := h
  exact ⟨v, hv, hnear.trans hle⟩

theorem Near.shift (h : Near b target error) (hdistance : |target - target'| ≤ error') :
    Near b target' (error + error') := by
  obtain ⟨v, hv, hnear⟩ := h
  exact ⟨v, hv, (abs_sub_le _ target _).trans (add_le_add hnear hdistance)⟩

/-- A rounded quotient by the logarithm of two stands for the dividend. -/
theorem near_of_rounds {q v : ℚ} (hv : b.toRat? = some v)
    (hrounds : Double.RoundsTo (q / logTwoValue) v) :
    Near b q (|(q : ℝ)| / 2 ^ 53 + 1 / 2 ^ 60) := by
  have hnear := mul_le_mul_of_nonneg_right hrounds.near_real logTwoValue_pos.le
  rw [← abs_mul_logTwoValue, sub_mul, add_mul, div_mul_eq_mul_div, ← abs_mul_logTwoValue,
    Rat.cast_div, div_mul_cancel₀ _ logTwoValue_pos.ne'] at hnear
  exact ⟨v, hv, by linarith [logTwoValue_bounds.2]⟩

/-- The error of the estimate for a factorial. -/
noncomputable def factorialError (n : ℕ) : ℝ := 9 / 2 ^ 50 * (spread n + 1)

/-- The estimate for a factorial is near, unless the factorial is beyond all bounds. -/
theorem factorialBits_near (h : Accurate logGamma) (hb : factorialBits? logGamma n = some b) :
    Near b (logFactorial n) (factorialError n) ∨
      b = .infinity false ∧ (Double.twoPow 1023 : ℝ) ≤ 4 * (spread n + 1) := by
  obtain ⟨x, hx, hresult⟩ := Option.bind_eq_some_iff.1 hb
  obtain ⟨m, hvalue, hm⟩ := argument_near hx
  dsimp only at hresult
  split at hresult
  · cases hresult
  next hfinite =>
  obtain hinfinite | ⟨q, hq, hnear⟩ := h m x hvalue
  · exact absurd hinfinite hfinite
  obtain rfl : (logGamma x).div logTwo = b := Option.some.inj hresult
  have hnonneg := logFactorial_nonneg n
  have hspread := logFactorial_le_spread n
  obtain ⟨hmlow, hmhigh⟩ := abs_le.1 hm
  obtain ⟨hqlow, hqhigh⟩ := abs_le.1 hnear
  have hsize : |(q : ℝ)| ≤ (1 + 1 / 2 ^ 40) * (spread n + 1) := by
    rw [abs_le]
    constructor <;> linarith
  have hpos := logTwoValue_pos
  obtain ⟨v, hv, hrounds⟩ | ⟨hinfinite, hlarge⟩ :=
    Double.div_rounds hq logTwo_toRat? (by exact_mod_cast hpos)
  · have hdistance : |(q : ℝ) - logFactorial n| ≤ 17 / 2 ^ 51 * (spread n + 1) := by
      rw [abs_le]
      constructor <;> linarith
    refine .inl (((near_of_rounds hv hrounds).shift hdistance).mono ?_)
    rw [factorialError]
    linarith
  · have hlargeReal := (Rat.cast_le (K := ℝ)).2 hlarge
    rw [Rat.cast_abs, Rat.cast_div, abs_div, abs_of_pos hpos, le_div_iff₀ hpos] at hlargeReal
    have hpow : Double.twoPow 10 ≤ Double.twoPow 1023 := Double.twoPow_le.2 (by norm_num)
    generalize Double.twoPow 1023 = most at hpow hlargeReal ⊢
    have hmany : (1024 : ℝ) ≤ most := by
      have hten : Double.twoPow 10 = 1024 := by norm_num [Double.twoPow]
      exact_mod_cast hten ▸ hpow
    have hhalf : (most : ℝ) * (1 / 2) ≤ |(q : ℝ)| := by nlinarith [logTwoValue_bounds.1]
    have hpositive : ¬ q < 0 := by
      intro hneg
      rw [abs_of_neg (by exact_mod_cast hneg)] at hhalf
      linarith
    exact .inr ⟨by rw [hinfinite, decide_eq_false hpositive], by linarith⟩

/-! ## Estimates of counts -/

/-- The difference of two estimates has both errors, and one of its own. -/
theorem Near.sub (size : ℝ) (h : Near b target error) (h' : Near b' target' error')
    (hsize : |target - target'| + error + error' ≤ size)
    (hsmall : 2 * size < Double.twoPow 1023) :
    Near (b.sub b') (target - target') (error + error' + size / 2 ^ 53 + 1 / 2 ^ 60) := by
  obtain ⟨v, hv, hnear⟩ := h
  obtain ⟨v', hv', hnear'⟩ := h'
  have hlow := logTwoValue_bounds.1
  have hdifference : |((v : ℝ) - v') * logTwoValue - (target - target')| ≤ error + error' := by
    rw [show ((v : ℝ) - v') * logTwoValue - (target - target') =
      (v * logTwoValue - target) - (v' * logTwoValue - target') by ring]
    exact (abs_sub _ _).trans (add_le_add hnear hnear')
  have hproduct : |(v : ℝ) - v'| * logTwoValue ≤ size := by
    have htriangle := abs_sub_abs_le_abs_sub (((v : ℝ) - v') * logTwoValue) (target - target')
    rw [← abs_mul_logTwoValue]
    linarith
  have hbound : |v - v'| < Double.twoPow 1023 := by
    have hreal : |(v : ℝ) - v'| < Double.twoPow 1023 := by nlinarith [abs_nonneg ((v : ℝ) - v')]
    exact_mod_cast hreal
  obtain ⟨w, hw, hrounds⟩ := Double.sub_rounds hv hv' hbound
  have hrounded := mul_le_mul_of_nonneg_right hrounds.near_real logTwoValue_pos.le
  rw [← abs_mul_logTwoValue, Rat.cast_sub, sub_mul, add_mul, div_mul_eq_mul_div] at hrounded
  refine ⟨w, hw, (abs_sub_le _ (((v : ℝ) - v') * logTwoValue) _).trans ?_⟩
  linarith [logTwoValue_bounds.2]

theorem factorialError_mono (h : k ≤ n) : factorialError k ≤ factorialError n := by
  have hspread : (spread k : ℝ) ≤ spread n := by exact_mod_cast spread_mono h
  unfold factorialError
  linarith

/-- The spread of a number of a thousand bits is far below the largest doubles. -/
theorem spread_small (hn : bitLength n ≤ 1000) : 4 * ((spread n : ℝ) + 1) < Double.twoPow 1023 := by
  have hbits : Double.twoPow (bitLength n) ≤ Double.twoPow 1000 :=
    Double.twoPow_le.2 (by exact_mod_cast hn)
  have hnumber : (n : ℚ) < Double.twoPow (bitLength n) := by
    rw [Double.twoPow_natCast]
    exact_mod_cast lt_two_pow_bitLength n
  have hmost : Double.twoPow 1023 = Double.twoPow 23 * Double.twoPow 1000 := by
    rw [← Double.twoPow_add]
    rfl
  have hpart : Double.twoPow 23 = 8388608 := by norm_num [Double.twoPow]
  have hone : Double.twoPow 0 ≤ Double.twoPow 1000 := Double.twoPow_le.2 (by norm_num)
  rw [Double.twoPow, zpow_zero] at hone
  have hspread : (spread n : ℚ) ≤ n * 1000 := by exact_mod_cast Nat.mul_le_mul_left n hn
  have hrat : 4 * ((spread n : ℚ) + 1) < Double.twoPow 1023 := by
    rw [hmost, hpart]
    linarith
  exact_mod_cast (Rat.cast_lt (K := ℝ)).2 hrat

/-- The error of the estimate for a count. -/
noncomputable def countError (n : ℕ) : ℝ := (spread n + 1) / 2 ^ 45

section Count

variable (h : Accurate logGamma) (hn : bitLength n ≤ 1000)
include h hn

theorem factorialBits_near_of_small (hk : k ≤ n) (hb : factorialBits? logGamma k = some b) :
    Near b (logFactorial k) (factorialError n) := by
  obtain hnear | ⟨-, hlarge⟩ := factorialBits_near h hb
  · exact hnear.mono (factorialError_mono hk)
  · exact absurd (spread_small ((bitLength_mono hk).trans hn)) (not_lt.2 hlarge)

/-- The estimate for the ordered choices, which is the first part of the one for the choices. -/
theorem difference_near (hk : k ≤ n) (hb : factorialBits? logGamma n = some b)
    (hb' : factorialBits? logGamma k = some b') :
    Near (b.sub b') (logFactorial n - logFactorial k) (37 / 2 ^ 51 * (spread n + 1)) := by
  have hall := factorialBits_near_of_small h hn (le_refl n) hb
  have hpart := factorialBits_near_of_small h hn hk hb'
  have hsize : |logFactorial n - logFactorial k| ≤ spread n := by
    rw [abs_of_nonneg (sub_nonneg.2 (logFactorial_mono hk))]
    linarith [logFactorial_nonneg k, logFactorial_le_spread n]
  have hsmall := spread_small hn
  unfold factorialError at hall hpart
  have hnonneg : (0 : ℝ) ≤ spread n := Nat.cast_nonneg _
  refine (hall.sub (2 * (spread n + 1)) hpart (by linarith) (by linarith)).mono ?_
  linarith

/-- The estimate for a count of choices is near its logarithm. -/
theorem resultBits_near {f : GlobalFunction} (hf : f = .comb ∨ f = .perm) (hk : k ≤ n)
    (hb : resultBits? logGamma f n (some (k : ℤ)) = some b) :
    Near b (Real.log (count f n (some k))) (countError n) := by
  have hnonneg : (0 : ℝ) ≤ spread n := Nat.cast_nonneg _
  obtain ⟨all, hall, hrest⟩ := Option.bind_eq_some_iff.1 hb
  have hleft : (n : ℤ) - k = (n - k : ℕ) := by omega
  obtain rfl | rfl := hf
  · simp only [hleft] at hrest
    obtain ⟨chosen, hchosen, hrest⟩ := Option.bind_eq_some_iff.1 hrest
    obtain ⟨left, hb', hdifference⟩ := Option.bind_eq_some_iff.1 hrest
    cases hdifference
    rw [count, log_combinations hk, countError]
    have hsize : |logFactorial n - logFactorial k - logFactorial (n - k)| ≤ spread n := by
      rw [← log_combinations hk, abs_of_nonneg (Real.log_natCast_nonneg _), log_combinations hk]
      linarith [logFactorial_nonneg k, logFactorial_nonneg (n - k), logFactorial_le_spread n]
    have hsmall := spread_small hn
    have hleftBits := factorialBits_near_of_small h hn (Nat.sub_le n k) hb'
    unfold factorialError at hleftBits
    refine ((difference_near h hn hk hall hchosen).sub (2 * (spread n + 1)) hleftBits
      (by linarith) (by linarith)).mono ?_
    linarith
  · simp only [hleft] at hrest
    obtain ⟨left, hb', hdifference⟩ := Option.bind_eq_some_iff.1 hrest
    cases hdifference
    rw [count, log_permutations hk, countError]
    refine (difference_near h hn (Nat.sub_le n k) hall hb').mono ?_
    linarith

end Count

/-! ## Refusals -/

@[simp]
theorem maxExactBits_toRat? : (Double.ofRat maxExactBits).toRat? = some 4096 := by decide +kernel

/-- An estimate that is near a logarithm beyond the limit is over it. -/
theorem Near.overLimit (h : Near b target error) (hlarge : 4096 * logTwoValue + error < target) :
    overLimit (some b) = true := by
  obtain ⟨v, hv, hnear⟩ := h
  obtain ⟨hlow, -⟩ := abs_le.1 hnear
  have hproduct : (4096 : ℝ) * logTwoValue < v * logTwoValue := by linarith
  have hvalue : (4096 : ℚ) < v := by
    exact_mod_cast lt_of_mul_lt_mul_right hproduct logTwoValue_pos.le
  simp only [Integer.overLimit, Double.less, Double.toExtended?_eq_rational.2 maxExactBits_toRat?,
    Double.toExtended?_eq_rational.2 hv]
  exact decide_eq_true hvalue

@[simp] theorem overLimit_infinity : overLimit (some (.infinity false)) = true := by decide +kernel

/-- How many bits beyond the limit a count of choices is surely refused with. -/
def margin (n : ℕ) : ℕ := 3 + spread n / 2 ^ 44

theorem margin_le (hn : bitLength n ≤ 44) : margin n ≤ 64 := by
  have hspread : spread n ≤ 2 ^ 44 * 44 :=
    Nat.mul_le_mul (bitLength_le_iff.1 hn).le hn
  have hpart : spread n / 2 ^ 44 ≤ 44 := Nat.div_le_of_le_mul hspread
  unfold margin
  omega

theorem countError_le (n : ℕ) : countError n ≤ (margin n - 2 : ℕ) / 2 := by
  have hpart : spread n + 1 ≤ (margin n - 2) * 2 ^ 44 := by
    unfold margin
    omega
  have hreal : (spread n + 1 : ℝ) ≤ (margin n - 2 : ℕ) * 2 ^ 44 := by exact_mod_cast hpart
  unfold countError
  rw [div_le_div_iff₀ (by norm_num) (by norm_num)]
  linarith

theorem bounded_of_overLimit {f : GlobalFunction} {k : Option ℕ} (hk : k.getD 0 ≤ n)
    (h : overLimit (resultBits? logGamma f n (k.map Nat.cast)) = true) :
    bounded logGamma f n (k.map Nat.cast) = .error (.tooLarge f) := by
  have hchosen : (k.map (Nat.cast (R := ℤ))).getD 0 = (k.getD 0 : ℕ) := by cases k <;> rfl
  unfold bounded
  dsimp only
  rw [hchosen, if_neg (by omega), if_neg (by omega), if_pos h]

theorem factorialBits_overLimit (h : Accurate logGamma)
    (hlarge : maxExactBits + 3 ≤ bitLength (factorial n)) :
    overLimit (factorialBits? logGamma n) = true := by
  cases hb : factorialBits? logGamma n with
  | none => rfl
  | some b =>
    obtain hnear | ⟨rfl, -⟩ := factorialBits_near h hb
    · rw [factorial_eq] at hlarge
      have hlog := mul_log_two_le (show 4098 < bitLength (n ! : ℕ) from hlarge)
      have hmany : 8 ≤ n := by
        by_contra hfew
        have hbits := bitLength_mono (Nat.factorial_le (show n ≤ 7 by omega))
        have hseven : bitLength (7 ! : ℕ) = 13 := by decide
        unfold maxExactBits at hlarge
        omega
      have hspread := spread_le_logFactorial hmany
      refine hnear.overLimit ?_
      change ((4098 : ℕ) : ℝ) * Real.log 2 ≤ logFactorial n at hlog
      push_cast at hlog
      unfold factorialError
      linarith [Real.log_two_gt_d9, logTwoValue_bounds.2]
    · exact overLimit_infinity

theorem resultBits_overLimit (h : Accurate logGamma) (hn : bitLength n ≤ 1000)
    {f : GlobalFunction} (hf : f = .comb ∨ f = .perm) (hk : k ≤ n)
    (hlarge : maxExactBits + margin n ≤ bitLength (count f n (some k))) :
    overLimit (resultBits? logGamma f n (some (k : ℤ))) = true := by
  cases hb : resultBits? logGamma f n (some (k : ℤ)) with
  | none => rfl
  | some b =>
    refine (resultBits_near h hn hf hk hb).overLimit ?_
    have hmargin : 3 ≤ margin n := Nat.le_add_right _ _
    have hlog := mul_log_two_le (show 4097 + (margin n - 2) < bitLength (count f n (some k)) by
      unfold maxExactBits at hlarge
      omega)
    have herror := countError_le n
    generalize margin n - 2 = extra at hlog herror
    have hnonneg : (0 : ℝ) ≤ extra := Nat.cast_nonneg _
    push_cast at hlog
    nlinarith [Real.log_two_gt_d9, logTwoValue_bounds.2]

/-- Counts beyond the limit are refused: factorials beyond it by three bits, and counts of choices
beyond it by the margin, which is at most 64 for numbers of at most 44 bits. -/
theorem bounded_tooLarge (h : Accurate logGamma) :
    (∀ n : ℕ, maxExactBits + 3 ≤ bitLength (factorial n) →
      bounded logGamma .factorial n none = .error (.tooLarge .factorial) ∧
        bounded logGamma .perm n none = .error (.tooLarge .perm)) ∧
    (∀ (f : GlobalFunction) (n k : ℕ), f = .comb ∨ f = .perm → k ≤ n → bitLength n ≤ 1000 →
      maxExactBits + margin n ≤ bitLength (count f n (some k)) →
        bounded logGamma f n (some (k : ℤ)) = .error (.tooLarge f)) ∧
    ∀ n : ℕ, bitLength n ≤ 44 → margin n ≤ 64 := by
  refine ⟨fun n hlarge => ?_, fun f n k hf hk hn hlarge => ?_, fun n hn => margin_le hn⟩
  · have hover := factorialBits_overLimit h hlarge
    have hall : ∀ f, resultBits? logGamma f n none = factorialBits? logGamma n := by
      intro f
      cases hb : factorialBits? logGamma n <;> cases f <;> simp [resultBits?, hb]
    exact ⟨bounded_of_overLimit (k := none) (Nat.zero_le n) ((hall _).symm ▸ hover),
      bounded_of_overLimit (k := none) (Nat.zero_le n) ((hall _).symm ▸ hover)⟩
  · exact bounded_of_overLimit (k := some k) hk (resultBits_overLimit h hn hf hk hlarge)

/-- The logarithm of the gamma function, cut after sixty bits and rounded. -/
noncomputable def preciseLogGamma (x : Double) : Double :=
  match x.toRat? with
  | some q => Double.ofRat (⌊Real.log (Real.Gamma q) * 2 ^ 60⌋ / 2 ^ 60)
  | none => x.abs

theorem preciseLogGamma_accurate : Accurate preciseLogGamma := by
  intro m x hx
  have hgamma : Real.log (Real.Gamma (((m : ℚ) + 1 : ℚ) : ℝ)) = logFactorial m := by
    push_cast
    rw [Real.Gamma_nat_eq_factorial]
    rfl
  have hnonneg := logFactorial_nonneg m
  have hbelow := Int.floor_le (logFactorial m * 2 ^ 60)
  have habove := Int.lt_floor_add_one (logFactorial m * 2 ^ 60)
  unfold preciseLogGamma
  rw [hx]
  dsimp only
  rw [hgamma]
  generalize ⌊logFactorial m * 2 ^ 60⌋ = cut at hbelow habove ⊢
  obtain ⟨v, hv, hrounds⟩ | ⟨hinfinite, -⟩ := Double.ofRat_rounds (cut / 2 ^ 60)
  · refine .inr ⟨v, hv, ?_⟩
    have hnear := hrounds.near_real
    push_cast at hnear
    have hcut : |(cut / 2 ^ 60 : ℝ) - logFactorial m| ≤ 1 / 2 ^ 60 := by
      rw [abs_le]
      constructor <;> linarith
    have hsize : |(cut / 2 ^ 60 : ℝ)| ≤ logFactorial m + 1 := by
      have htriangle := abs_sub_abs_le_abs_sub (cut / 2 ^ 60 : ℝ) (logFactorial m)
      rw [abs_of_nonneg hnonneg] at htriangle
      linarith
    refine (abs_sub_le _ (cut / 2 ^ 60 : ℝ) _).trans ?_
    linarith
  · rw [hinfinite]
    exact .inl rfl

theorem bounded_tooLarge_precise :
    bounded preciseLogGamma .factorial (1000 : ℕ) none = .error (.tooLarge .factorial) ∧
      bounded preciseLogGamma .perm (1000 : ℕ) (some (500 : ℕ)) = .error (.tooLarge .perm) ∧
      bounded preciseLogGamma .comb (5000 : ℕ) (some (2500 : ℕ)) = .error (.tooLarge .comb) :=
  have h := bounded_tooLarge preciseLogGamma_accurate
  ⟨(h.1 1000 (by decide +kernel)).1,
    h.2.1 .perm 1000 500 (.inr rfl) (by decide) (by decide) (by decide +kernel),
    h.2.1 .comb 5000 2500 (.inl rfl) (by decide) (by decide) (by decide +kernel)⟩

/-! ## Cancelled estimates -/

/-- An estimate that is taken from itself is zero, or no number. -/
@[simp] theorem overLimit_sub_self (b : Double) : overLimit (some (b.sub b)) = false := by
  simp only [overLimit, Double.less, Double.toExtended?_eq_rational.2 maxExactBits_toRat?]
  cases b with
  | nan negative identity => rfl
  | infinity negative => cases negative <;> rfl
  | finite negative significand exponent canonical =>
    obtain ⟨-, -, -, -, hneg, -⟩ := Double.exists_magnitude
      (x := .finite negative significand exponent canonical) rfl
    have hzero : (Double.finite negative significand exponent canonical).sub
        (.finite negative significand exponent canonical) =
          Double.zero (negative && !negative) := by
      unfold Double.sub Double.add
      rw [hneg]
      simp [Double.isNaN, Double.toRat?, Double.isNegative, Double.neg]
    rw [hzero, Double.toExtended?_eq_rational.2 (Double.toRat?_zero _)]
    decide

/-- When both numbers are rounded to the same double, the estimate is zero and the choices are
counted, however many they are. -/
theorem bounded_of_cancelled {x : Double} (hk : k ≤ n) (hx : Double.ofInt? (n + 1) = some x)
    (hx' : Double.ofInt? ((n : ℤ) - k + 1) = some x) (hfinite : (logGamma x).isInfinite = false) :
    bounded logGamma .perm n (some (k : ℤ)) = .ok (.int (permutations n k)) := by
  have hbits : ∀ m : ℤ, Double.ofInt? (m + 1) = some x →
      factorialBits? logGamma m = some ((logGamma x).div logTwo) := by
    intro m hm
    simp [factorialBits?, hm, hfinite]
  have hestimate : resultBits? logGamma .perm n (some (k : ℤ)) =
      some (((logGamma x).div logTwo).sub ((logGamma x).div logTwo)) := by
    simp [resultBits?, hbits n hx, hbits (n - k) hx']
  have hle : (k : ℤ) ≤ n := by exact_mod_cast hk
  simp only [bounded, Option.getD_some, hestimate, overLimit_sub_self]
  rw [if_neg (by omega), if_neg (by omega), if_neg Bool.false_ne_true]
  rfl

/-- No logarithm of the gamma function that is finite for smaller numbers keeps the limit for the
choices out of huge numbers. -/
theorem bounded_permutations_huge :
    ¬ ∃ logGamma : Double → Double,
      (∀ (n : ℕ) (x : Double), bitLength n ≤ 1000 → Double.ofInt? (n + 1) = some x →
        (logGamma x).isInfinite = false) ∧
      ∀ n k : ℕ, k ≤ n → maxExactBits + 64 ≤ bitLength (permutations n k) →
        bounded logGamma .perm n (some (k : ℤ)) = .error (.tooLarge .perm) := by
  rintro ⟨logGamma, hfinite, hrefused⟩
  obtain ⟨x, hx⟩ : ∃ x, Double.ofInt? (((10 ^ 20 : ℕ) : ℤ) + 1) = some x :=
    Option.isSome_iff_exists.1 (by decide +kernel)
  have hx' : Double.ofInt? (((10 ^ 20 : ℕ) : ℤ) - (300 : ℕ) + 1) = some x := by
    rw [← hx]
    decide +kernel
  have hcounted := bounded_of_cancelled (by norm_num) hx hx'
    (hfinite (10 ^ 20) x (by decide +kernel) hx)
  rw [hrefused (10 ^ 20) 300 (by norm_num) (by decide +kernel)] at hcounted
  cases hcounted

end Integer

end SceneTemplates
