import Mathlib.Algebra.Order.Field.Power
import Mathlib.Data.Rat.Floor
import Mathlib.Tactic.FieldSimp
import Mathlib.Tactic.Linarith
import Mathlib.Tactic.NormNum
import Mathlib.Tactic.Ring
import SceneTemplates.Number.Double

/-!
# Rounded values

How far the double that an operation gives lies from the exact result. Below the largest doubles the
error is at most half of the last place, which is a small part of the value, or of the least place
of the format. A small integer is a double, and an integer is never rounded to a fraction.
-/
namespace SceneTemplates.Double

variable {q v : ℚ}

/-! ## Last places -/

theorem twoPow_pos (e : ℤ) : 0 < twoPow e := zpow_pos (by norm_num) e

theorem twoPow_add (e e' : ℤ) : twoPow (e + e') = twoPow e * twoPow e' :=
  zpow_add₀ (by norm_num) e e'

@[simp] theorem twoPow_le {e e' : ℤ} : twoPow e ≤ twoPow e' ↔ e ≤ e' :=
  zpow_le_zpow_iff_right₀ (by norm_num)

@[simp] theorem twoPow_lt {e e' : ℤ} : twoPow e < twoPow e' ↔ e < e' :=
  zpow_lt_zpow_iff_right₀ (by norm_num)

/-- A number of some bits lies between two powers of two. -/
theorem twoPow_log2 {n : ℕ} (hn : 0 < n) :
    twoPow (Nat.log2 n) ≤ n ∧ (n : ℚ) < twoPow (Nat.log2 n + 1) := by
  constructor
  · show (2 : ℚ) ^ (Nat.log2 n : ℤ) ≤ n
    exact_mod_cast Nat.log2_self_le hn.ne'
  · show (n : ℚ) < 2 ^ (Nat.log2 n + 1 : ℤ)
    exact_mod_cast @Nat.lt_log2_self n

/-- A positive number lies between two powers of two, from which its last place is told. -/
theorem exists_leading (hq : 0 < q) :
    ∃ leading : ℤ, twoPow leading ≤ q ∧ q < twoPow (leading + 1) ∧
      lastPlace q = max (leading - 52) (-1074) := by
  have hnum : 0 < q.num := Rat.num_pos.2 hq
  have hnat : ((q.num.natAbs : ℕ) : ℚ) = q.num := by
    rw [← Int.cast_natCast, Int.natCast_natAbs, abs_of_pos hnum]
  have hden : (0 : ℚ) < q.den := by exact_mod_cast q.den_pos
  have hvalue : q * q.den = q.num.natAbs := by
    rw [hnat]
    exact Rat.mul_den_eq_num q
  obtain ⟨hnumLow, hnumHigh⟩ := twoPow_log2 (Int.natAbs_pos.2 hnum.ne')
  obtain ⟨hdenLow, hdenHigh⟩ := twoPow_log2 q.den_pos
  generalize hguess : (Nat.log2 q.num.natAbs : ℤ) - Nat.log2 q.den = guess
  have hlow : twoPow (guess - 1) ≤ q := by
    refine le_of_mul_le_mul_right ?_ hden
    calc twoPow (guess - 1) * q.den ≤ twoPow (guess - 1) * twoPow (Nat.log2 q.den + 1) :=
          mul_le_mul_of_nonneg_left hdenHigh.le (twoPow_pos _).le
      _ = twoPow (Nat.log2 q.num.natAbs) := by
          rw [← twoPow_add, ← hguess]
          congr 1
          ring
      _ ≤ q * q.den := hvalue ▸ hnumLow
  have hhigh : q < twoPow (guess + 1) := by
    refine lt_of_mul_lt_mul_right ?_ hden.le
    calc q * q.den < twoPow (Nat.log2 q.num.natAbs + 1) := hvalue ▸ hnumHigh
      _ = twoPow (guess + 1) * twoPow (Nat.log2 q.den) := by
          rw [← twoPow_add, ← hguess]
          congr 1
          ring
      _ ≤ twoPow (guess + 1) * q.den := mul_le_mul_of_nonneg_left hdenLow (twoPow_pos _).le
  by_cases hle : twoPow guess ≤ q
  · exact ⟨guess, hle, hhigh, by simp only [lastPlace, hguess, if_pos hle]⟩
  · refine ⟨guess - 1, hlow, ?_, by simp only [lastPlace, hguess, if_neg hle]⟩
    rw [sub_add_cancel]
    exact not_le.1 hle

/-- The last place is told by the powers of two around a number. -/
theorem lastPlace_eq_iff {e : ℤ} (hq : 0 < q) :
    lastPlace q = e ↔ -1074 ≤ e ∧ q < twoPow (53 + e) ∧ (e = -1074 ∨ twoPow (52 + e) ≤ q) := by
  obtain ⟨leading, hlow, hhigh, hplace⟩ := exists_leading hq
  have hbelow : q < twoPow (53 + e) ↔ leading < 53 + e := by
    constructor
    · exact fun h => twoPow_lt.1 (hlow.trans_lt h)
    · exact fun h => hhigh.trans_le (twoPow_le.2 (by omega))
  have habove : twoPow (52 + e) ≤ q ↔ 52 + e ≤ leading := by
    constructor
    · intro h
      have hless := twoPow_lt.1 (h.trans_lt hhigh)
      omega
    · exact fun h => (twoPow_le.2 h).trans hlow
  rw [hbelow, habove]
  omega

theorem abs_roundHalfEven_sub (q : ℚ) : |(roundHalfEven q : ℚ) - q| ≤ 1 / 2 := by
  have hbelow := Int.floor_le q
  have habove := Int.lt_floor_add_one q
  have hfloor : q.floor = ⌊q⌋ := rfl
  unfold roundHalfEven
  dsimp only
  rw [hfloor, abs_le]
  split_ifs
  all_goals push_cast; constructor <;> linarith

theorem roundHalfEven_nonneg (hq : 0 ≤ q) : 0 ≤ roundHalfEven q := by
  have hfloor : 0 ≤ q.floor := Int.floor_nonneg.2 hq
  unfold roundHalfEven
  dsimp only
  split_ifs <;> omega

@[simp] theorem roundHalfEven_intCast (n : ℤ) : roundHalfEven n = n := by
  have hfloor : (n : ℚ).floor = n := Rat.floor_intCast n
  unfold roundHalfEven
  dsimp only
  rw [hfloor, sub_self, if_pos (by norm_num)]

/-! ## Rounding -/

/-- A number that rounding may give for another one. -/
structure RoundsTo (q v : ℚ) : Prop where
  near : |v - q| ≤ |q| * twoPow (-53) + twoPow (-1075)
  integral : ∀ n : ℤ, q = n → ∃ m : ℤ, v = m
  exact : ∀ n : ℤ, q = n → |n| < 2 ^ 53 → v = q

theorem RoundsTo.neg (h : RoundsTo q v) : RoundsTo (-q) (-v) where
  near := by
    have hnear := h.near
    rwa [abs_neg, ← neg_sub', abs_neg]
  integral n hn := by
    obtain ⟨m, hm⟩ := h.integral (-n) (by rw [Int.cast_neg, ← hn, neg_neg])
    exact ⟨-m, by rw [hm, Int.cast_neg]⟩
  exact n hn hsmall := by
    rw [h.exact (-n) (by rw [Int.cast_neg, ← hn, neg_neg]) (by rwa [abs_neg])]

theorem RoundsTo.zero : RoundsTo 0 0 where
  near := by
    rw [sub_zero, abs_zero, zero_mul, zero_add]
    exact (twoPow_pos _).le
  integral n _ := ⟨0, Int.cast_zero.symm⟩
  exact n _ _ := rfl

theorem twoPow_natCast (n : ℕ) : twoPow n = ((2 ^ n : ℤ) : ℚ) := by
  show (2 : ℚ) ^ (n : ℤ) = _
  push_cast
  rw [zpow_natCast]

/-- An integer whose last place is no fraction stays as it is. -/
theorem rounded_of_lastPlace_nonpos {n e : ℤ} (he : e ≤ 0) :
    (roundHalfEven (n / twoPow e) : ℚ) * twoPow e = n := by
  obtain ⟨k, hk⟩ := Int.eq_ofNat_of_zero_le (Int.neg_nonneg_of_nonpos he)
  have hscaled : (n : ℚ) / twoPow e = ((n * 2 ^ k : ℤ) : ℚ) := by
    have hinverse : twoPow e * twoPow k = 1 := by
      rw [← twoPow_add, show e + (k : ℤ) = 0 by omega]
      rfl
    rw [div_eq_iff (twoPow_pos e).ne', Int.cast_mul, ← twoPow_natCast, mul_assoc,
      mul_comm (twoPow _), hinverse, mul_one]
  rw [hscaled, roundHalfEven_intCast, ← hscaled, div_mul_cancel₀ _ (twoPow_pos e).ne']

/-- Rounding to the last place of a number. -/
theorem roundsTo_lastPlace (hq : 0 < q) :
    RoundsTo q (roundHalfEven (q / twoPow (lastPlace q)) * twoPow (lastPlace q)) := by
  obtain ⟨leading, hlow, hhigh, hplace⟩ := exists_leading hq
  have hunit := twoPow_pos (lastPlace q)
  refine ⟨?_, fun n hn => ?_, fun n hn hsmall => ?_⟩
  · have hhalf : |(roundHalfEven (q / twoPow (lastPlace q)) : ℚ) * twoPow (lastPlace q) - q| ≤
        twoPow (lastPlace q - 1) := by
      have hrounded := abs_roundHalfEven_sub (q / twoPow (lastPlace q))
      have hfactor : (roundHalfEven (q / twoPow (lastPlace q)) : ℚ) * twoPow (lastPlace q) - q =
          (roundHalfEven (q / twoPow (lastPlace q)) - q / twoPow (lastPlace q)) *
            twoPow (lastPlace q) := by
        rw [sub_mul, div_mul_cancel₀ _ hunit.ne']
      rw [hfactor, abs_mul, abs_of_pos hunit,
        show lastPlace q - 1 = -1 + lastPlace q by ring, twoPow_add]
      exact mul_le_mul_of_nonneg_right (hrounded.trans (by norm_num [twoPow])) hunit.le
    refine hhalf.trans ?_
    rw [abs_of_pos hq]
    obtain hmax | hmax := max_choice (leading - 52) (-1074)
    · rw [hplace, hmax, show leading - 52 - 1 = leading + -53 by ring, twoPow_add]
      have hpart := mul_le_mul_of_nonneg_right hlow (twoPow_pos (-53)).le
      linarith [twoPow_pos (-1075)]
    · rw [hplace, hmax, show (-1074 - 1 : ℤ) = -1075 by norm_num]
      have hpart := mul_pos hq (twoPow_pos (-53))
      linarith
  · obtain he | he := le_total (lastPlace q) 0
    · exact ⟨n, by rw [hn] at he ⊢; exact rounded_of_lastPlace_nonpos he⟩
    · obtain ⟨k, hk⟩ := Int.eq_ofNat_of_zero_le he
      exact ⟨roundHalfEven (q / twoPow (lastPlace q)) * 2 ^ k, by
        rw [Int.cast_mul, ← twoPow_natCast, hk]⟩
  · have he : lastPlace q ≤ 0 := by
      have hbound : twoPow leading < twoPow 53 := by
        refine hlow.trans_lt ?_
        rw [hn]
        have hcast : (n : ℚ) < ((2 ^ 53 : ℤ) : ℚ) := by
          exact_mod_cast (le_abs_self n).trans_lt hsmall
        exact hcast
      have hleading := twoPow_lt.1 hbound
      rw [hplace]
      omega
    rw [hn] at he ⊢
    exact rounded_of_lastPlace_nonpos he

@[simp] theorem toRat?_zero (negative : Bool) : (zero negative).toRat? = some 0 := by
  cases negative <;> simp [zero, toRat?]

/-- What is left of a magnitude in units of its last place: 53 bits, all of them unless the last
place is the least one. -/
theorem significand_bounds (hq : 0 < q) :
    0 ≤ roundHalfEven (q / twoPow (lastPlace q)) ∧
      roundHalfEven (q / twoPow (lastPlace q)) ≤ 2 ^ 53 ∧
      (2 ^ 52 ≤ roundHalfEven (q / twoPow (lastPlace q)) ∨ lastPlace q = -1074) := by
  have hunit := twoPow_pos (lastPlace q)
  obtain ⟨-, hscaled, hfull⟩ := (lastPlace_eq_iff hq).1 rfl
  rw [twoPow_add, ← div_lt_iff₀ hunit] at hscaled
  rw [twoPow_add, ← le_div_iff₀ hunit] at hfull
  have hbits : twoPow 53 = 2 ^ 53 ∧ twoPow 52 = 2 ^ 52 := ⟨rfl, rfl⟩
  have hnear := abs_le.1 (abs_roundHalfEven_sub (q / twoPow (lastPlace q)))
  refine ⟨roundHalfEven_nonneg (div_nonneg hq.le hunit.le), ?_, ?_⟩
  all_goals generalize roundHalfEven (q / twoPow (lastPlace q)) = rounded at hnear ⊢
  · have hsmall : (rounded : ℚ) < 2 ^ 53 + 1 := by linarith
    have : rounded < 2 ^ 53 + 1 := by exact_mod_cast hsmall
    omega
  · refine hfull.symm.imp_left fun hfull => ?_
    have hlarge : (2 ^ 52 - 1 : ℚ) < rounded := by linarith
    have : (2 ^ 52 - 1 : ℤ) < rounded := by exact_mod_cast hlarge
    omega

/-- The significand and the exponent that a magnitude is rounded to. They are in the canonical form,
unless the exponent is too large. -/
theorem exists_form (hq : 0 < q) :
    ∃ m e, (if (roundHalfEven (q / twoPow (lastPlace q))).toNat = Nat.pow 2 53 then
        (Nat.pow 2 52, lastPlace q + 1)
      else ((roundHalfEven (q / twoPow (lastPlace q))).toNat, lastPlace q)) = (m, e) ∧
      (m : ℚ) * twoPow e = roundHalfEven (q / twoPow (lastPlace q)) * twoPow (lastPlace q) ∧
      (e ≤ 971 → Canonical m e) ∧ (971 < e → twoPow 1023 ≤ q) := by
  obtain ⟨leading, hlow, -, hplace⟩ := exists_leading hq
  obtain ⟨hnonneg, hmost, hleast⟩ := significand_bounds hq
  obtain ⟨significand, hsignificand⟩ := Int.eq_ofNat_of_zero_le hnonneg
  rw [hsignificand] at hmost hleast ⊢
  have hpow : Nat.pow 2 53 = 2 ^ 53 ∧ Nat.pow 2 52 = 2 ^ 52 := ⟨rfl, rfl⟩
  rw [Int.toNat_natCast]
  by_cases hfull : significand = Nat.pow 2 53
  · -- The magnitude was rounded up to the next power of two.
    refine ⟨Nat.pow 2 52, lastPlace q + 1, by rw [if_pos hfull], ?_, fun he => ?_, fun he => ?_⟩
    · rw [hfull, add_comm, twoPow_add, ← mul_assoc]
      norm_num [twoPow, hpow]
    · exact ⟨by decide, by omega, he, .inl (Nat.le_refl _)⟩
    · exact (twoPow_le.2 (by omega)).trans hlow
  · refine ⟨significand, lastPlace q, by rw [if_neg hfull], rfl, fun he => ?_, fun he => ?_⟩
    · refine ⟨by omega, by omega, he, ?_⟩
      obtain hleast | hleast := hleast
      · exact .inl (by omega)
      · exact .inr hleast
    · exact (twoPow_le.2 (by omega)).trans hlow

/-- A magnitude is rounded to a double; only one of the largest may be rounded to the infinity. -/
theorem ofMagnitude_rounds (negative : Bool) (hq : 0 ≤ q) :
    (∃ v, (ofMagnitude negative q).toRat? = some (if negative then -v else v) ∧ RoundsTo q v) ∨
      ofMagnitude negative q = infinity negative ∧ twoPow 1023 ≤ q := by
  obtain rfl | hpos := hq.eq_or_lt
  · refine .inl ⟨0, ?_, RoundsTo.zero⟩
    rw [ofMagnitude, if_pos rfl, toRat?_zero]
    cases negative <;> rfl
  obtain ⟨m, e, hform, hvalue, hcanonical, hlarge⟩ := exists_form hpos
  unfold ofMagnitude
  rw [if_neg hpos.ne']
  simp only [hform]
  by_cases he : e ≤ 971
  · rw [dif_pos (hcanonical he)]
    refine .inl ⟨_, ?_, roundsTo_lastPlace hpos⟩
    rw [← hvalue]
    rfl
  · rw [dif_neg fun h => he h.2.2.1]
    exact .inr ⟨rfl, hlarge (by omega)⟩

/-- A number is rounded to a double; only one of the largest may be rounded to an infinity. -/
theorem ofRat_rounds (q : ℚ) :
    (∃ v, (ofRat q).toRat? = some v ∧ RoundsTo q v) ∨
      ofRat q = infinity (decide (q < 0)) ∧ twoPow 1023 ≤ |q| := by
  by_cases hneg : q < 0
  · have hrat : ofRat q = ofMagnitude true (-q) := by simp [ofRat, hneg]
    rw [hrat, decide_eq_true hneg, abs_of_neg hneg]
    obtain ⟨v, hv, hrounds⟩ | hinfinite := ofMagnitude_rounds true (neg_pos.2 hneg).le
    · exact .inl ⟨-v, hv, by simpa using hrounds.neg⟩
    · exact .inr hinfinite
  · have hrat : ofRat q = ofMagnitude false q := by simp [ofRat, hneg]
    rw [hrat, decide_eq_false hneg, abs_of_nonneg (not_lt.1 hneg)]
    obtain ⟨v, hv, hrounds⟩ | hinfinite := ofMagnitude_rounds false (not_lt.1 hneg)
    · exact .inl ⟨v, hv, hrounds⟩
    · exact .inr hinfinite

/-- An integer that is not beyond the doubles is rounded to an integer. -/
theorem ofInt?_rounds {n : ℤ} {x : Double} (h : ofInt? n = some x) :
    ∃ m : ℤ, x.toRat? = some (m : ℚ) ∧ RoundsTo n m := by
  unfold ofInt? at h
  obtain ⟨v, hv, hrounds⟩ | ⟨hinfinite, -⟩ := ofRat_rounds n
  · have hx : ofRat n = x := by
      cases hr : ofRat n with
      | infinity negative =>
        rw [hr] at hv
        cases hv
      | nan | finite =>
        rw [hr] at h
        exact Option.some.inj h
    obtain ⟨m, rfl⟩ := hrounds.integral n rfl
    exact ⟨m, hx ▸ hv, hrounds⟩
  · rw [hinfinite] at h
    cases h

/-! ## Operations -/

section Operations

variable {x y : Double} {a b : ℚ}

/-- The sign and the magnitude of a double. -/
theorem exists_magnitude (hx : x.toRat? = some a) :
    ∃ size : ℚ, 0 ≤ size ∧ a = (if x.isNegative then -size else size) ∧
      x.abs.toRat? = some size ∧ x.neg.toRat? = some (-a) ∧ x.isNaN = false := by
  cases x with
  | nan | infinity => cases hx
  | finite negative m e hcanonical =>
    refine ⟨m * twoPow e, mul_nonneg (Nat.cast_nonneg m) (twoPow_pos e).le,
      (Option.some.inj hx).symm, rfl, ?_, rfl⟩
    rw [← Option.some.inj hx]
    cases negative
    · rfl
    · show some _ = some (- -_)
      rw [neg_neg]
      rfl

/-- A sum is rounded once. -/
theorem add_rounds (hx : x.toRat? = some a) (hy : y.toRat? = some b)
    (hsmall : |a + b| < twoPow 1023) :
    ∃ v, (x.add y).toRat? = some v ∧ RoundsTo (a + b) v := by
  unfold add
  rw [hx, hy]
  dsimp only
  by_cases hzero : a + b = 0
  · rw [if_pos hzero, hzero]
    exact ⟨0, toRat?_zero _, RoundsTo.zero⟩
  · rw [if_neg hzero]
    obtain hrounds | ⟨-, hlarge⟩ := ofRat_rounds (a + b)
    · exact hrounds
    · exact absurd hlarge (not_le.2 hsmall)

theorem sub_rounds (hx : x.toRat? = some a) (hy : y.toRat? = some b)
    (hsmall : |a - b| < twoPow 1023) :
    ∃ v, (x.sub y).toRat? = some v ∧ RoundsTo (a - b) v := by
  obtain ⟨-, -, -, -, hneg, hnumber⟩ := exists_magnitude hy
  rw [sub, hnumber, if_neg Bool.false_ne_true, sub_eq_add_neg]
  exact add_rounds hx hneg (by rwa [← sub_eq_add_neg])

/-- A quotient by a positive number is rounded once. -/
theorem div_rounds (hx : x.toRat? = some a) (hy : y.toRat? = some b) (hb : 0 < b) :
    (∃ v, (x.div y).toRat? = some v ∧ RoundsTo (a / b) v) ∨
      x.div y = infinity (decide (a < 0)) ∧ twoPow 1023 ≤ |a / b| := by
  obtain ⟨size, hsize, ha, hxabs, -⟩ := exists_magnitude hx
  obtain ⟨size', hsize', hb', hyabs, -⟩ := exists_magnitude hy
  have hpositive : y.isNegative = false := by
    by_contra hneg
    rw [Bool.not_eq_false] at hneg
    rw [hneg, if_pos rfl] at hb'
    linarith
  rw [hpositive, if_neg Bool.false_ne_true] at hb'
  have hquotient : x.div y = ofMagnitude x.isNegative (size / b) := by
    unfold div
    rw [hxabs, hyabs, hpositive, hb']
    dsimp only
    rw [if_neg (hb' ▸ hb.ne'), Bool.bne_false]
  rw [hquotient]
  obtain ⟨v, hv, hrounds⟩ | ⟨hinfinite, hlarge⟩ :=
    ofMagnitude_rounds x.isNegative (div_nonneg hsize hb.le)
  · refine .inl ⟨_, hv, ?_⟩
    cases hx : x.isNegative with
    | false => simpa [ha, hx] using hrounds
    | true => simpa [ha, hx, neg_div] using hrounds.neg
  · have hpos : 0 < size := by
      have hquotientPos : 0 < size / b := (twoPow_pos 1023).trans_le hlarge
      by_contra hzero
      rw [le_antisymm (not_lt.1 hzero) hsize, zero_div] at hquotientPos
      exact lt_irrefl _ hquotientPos
    refine .inr ⟨?_, ?_⟩
    · rw [hinfinite]
      cases hx : x.isNegative with
      | false => simp [ha, hx, hsize]
      | true => simp [ha, hx, hpos]
    · have habs : |a / b| = size / b := by
        rw [abs_div, abs_of_pos hb]
        cases hx : x.isNegative with
        | false => simp [ha, hx, abs_of_nonneg hsize]
        | true => simp [ha, hx, abs_of_nonneg hsize]
      rwa [habs]

end Operations

end SceneTemplates.Double
