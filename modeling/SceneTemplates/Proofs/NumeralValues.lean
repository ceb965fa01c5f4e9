import SceneTemplates.Proofs.NumericTexts
import SceneTemplates.Proofs.ShortestDecimals

/-!
# Values of numerals

A numeral is read as the double nearest to the number that its digits stand for. The sizes that are
settled by the count of digits are beyond the largest double, or below the half of the least one.
-/
namespace SceneTemplates

/-! ## Numbers that digits denote -/

namespace Text

theorem ofDigits_append (base : ℕ) (front back : List ℕ) :
    ofDigits base (front ++ back) =
      ofDigits base front * base ^ back.length + ofDigits base back := by
  induction back generalizing front with
  | nil => simp [ofDigits]
  | cons d back ih =>
    have hlast : ofDigits base (front ++ [d]) = base * ofDigits base front + d := by
      rw [ofDigits, List.foldl_append]
      rfl
    have hfirst : ofDigits base [d] = d := by simp [ofDigits]
    have htail := ih [d]
    rw [List.singleton_append] at htail
    rw [List.append_cons, ih, htail, hlast, hfirst, List.length_cons, pow_succ]
    ring

theorem ofDigits_lt {base : ℕ} {digits : List ℕ} (h : ∀ d ∈ digits, d < base) :
    ofDigits base digits < base ^ digits.length := by
  induction digits with
  | nil => simp [ofDigits]
  | cons d digits ih =>
    obtain ⟨hd, hdigits⟩ := List.forall_mem_cons.1 h
    have hrow := ofDigits_append base [d] digits
    have hsingle : ofDigits base [d] = d := by simp [ofDigits]
    rw [List.singleton_append, hsingle] at hrow
    calc ofDigits base (d :: digits)
        = d * base ^ digits.length + ofDigits base digits := hrow
      _ < d * base ^ digits.length + base ^ digits.length := Nat.add_lt_add_left (ih hdigits) _
      _ = (d + 1) * base ^ digits.length := (Nat.succ_mul _ _).symm
      _ ≤ base * base ^ digits.length := Nat.mul_le_mul_right _ hd
      _ = base ^ (d :: digits).length := by rw [List.length_cons, pow_succ, Nat.mul_comm]

@[simp] theorem ofDigits_zeros (base n : ℕ) : ofDigits base (List.replicate n 0) = 0 := by
  induction n with
  | zero => rfl
  | succ n ih =>
    rw [List.replicate_succ', ofDigits_append, ih, zero_mul, zero_add]
    simp [ofDigits]

@[simp] theorem ofDigits_zeros_append (base n : ℕ) (digits : List ℕ) :
    ofDigits base (List.replicate n 0 ++ digits) = ofDigits base digits := by
  simp [ofDigits_append]

@[simp] theorem ofDigits_append_zeros (base : ℕ) (digits : List ℕ) (n : ℕ) :
    ofDigits base (digits ++ List.replicate n 0) = ofDigits base digits * base ^ n := by
  simp [ofDigits_append]

end Text

namespace Numeral

open DecimalForm (tenPow tenPow_pos digitCount)

/-! ## Rounding the value -/

/-- The number that a numeral stands for. -/
def value (n : Numeral) : ℚ :=
  Text.ofDigits 10 (n.whole ++ n.fraction.getD []) *
    tenPow (n.exponent.getD 0 - (n.fraction.getD []).length)

theorem overflowBound_le_tenPow : Double.overflowBound ≤ tenPow 400 := by
  have hpart : 0 < Double.twoPow 970 := Double.twoPow_pos 970
  have hpowers : 2 ^ 1024 ≤ 10 ^ 400 := by decide +kernel
  calc Double.overflowBound ≤ Double.twoPow 1024 := sub_le_self _ hpart.le
    _ = ((2 ^ 1024 : ℕ) : ℚ) := by
        have hwhole := Double.twoPow_natCast 1024
        exact_mod_cast hwhole
    _ ≤ ((10 ^ 400 : ℕ) : ℚ) := Nat.cast_le.2 hpowers
    _ = tenPow 400 := (DecimalForm.tenPow_natCast 400).symm

theorem tenPow_lt_twoPow : tenPow (-401) < Double.twoPow (-1075) := by
  have hpowers : 2 ^ 1075 < 10 ^ 401 := by decide +kernel
  have hcast : (2 : ℚ) ^ 1075 < 10 ^ 401 := by exact_mod_cast hpowers
  rw [tenPow, Double.twoPow, zpow_neg, zpow_neg]
  exact inv_strictAnti₀ (by positivity) hcast

/-- The double that a numeral is read as is the nearest one to its value. -/
theorem toDouble_eq (negative : Bool) (n : Numeral) :
    n.toDouble negative = .ofMagnitude negative n.value := by
  unfold toDouble value
  dsimp only
  generalize Text.ofDigits 10 (n.whole ++ n.fraction.getD []) = digits
  generalize n.exponent.getD 0 - ((n.fraction.getD []).length : ℤ) = power
  by_cases hzero : digits = 0
  · rw [if_pos hzero, hzero, Nat.cast_zero, zero_mul, Double.ofMagnitude, if_pos rfl]
  have hpos : 0 < digits := Nat.pos_of_ne_zero hzero
  have hunit := tenPow_pos power
  obtain ⟨hlow, hhigh⟩ := DecimalForm.digitCount_bounds hpos
  have hcount : (Nat.toDigits 10 digits).length = digitCount digits := rfl
  have hnonneg : (0 : ℚ) ≤ digits * tenPow power := mul_nonneg (Nat.cast_nonneg _) hunit.le
  rw [if_neg hzero, hcount]
  split_ifs with hlarge hsmall
  · refine ((Double.ofMagnitude_eq_infinity_iff negative hnonneg).2 ?_).symm
    calc Double.overflowBound ≤ tenPow 400 := overflowBound_le_tenPow
      _ ≤ tenPow (digitCount digits - 1 + power) := DecimalForm.tenPow_le.2 (by omega)
      _ = tenPow (digitCount digits - 1) * tenPow power := DecimalForm.tenPow_add _ _
      _ ≤ digits * tenPow power := mul_le_mul_of_nonneg_right hlow hunit.le
  · refine (Double.ofMagnitude_eq_zero negative hnonneg ?_).symm
    calc digits * tenPow power < tenPow (digitCount digits) * tenPow power :=
          mul_lt_mul_of_pos_right hhigh hunit
      _ = tenPow (digitCount digits + power) := (DecimalForm.tenPow_add _ _).symm
      _ ≤ tenPow (-401) := DecimalForm.tenPow_le.2 (by omega)
      _ < Double.twoPow (-1075) := tenPow_lt_twoPow
  · rfl

end Numeral

end SceneTemplates
