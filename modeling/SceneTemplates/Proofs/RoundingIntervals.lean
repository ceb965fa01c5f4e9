import SceneTemplates.Number.Shortest
import SceneTemplates.Proofs.DoubleRange

/-!
# Rounding intervals

A magnitude is rounded to a double exactly if it lies in the rounding interval of that double. Its
ends are the middles between the double and its two neighbours; they belong to it if the significand
is even.
-/
namespace SceneTemplates

namespace Double

variable {q : ℚ} {n e : ℤ} {m : ℕ}

/-! ## Nearest integers -/

/-- Of two nearest integers the even one is taken. -/
theorem roundHalfEven_of_half (h : |(roundHalfEven q : ℚ) - q| = 1 / 2) :
    roundHalfEven q % 2 = 0 := by
  have hbelow : (q.floor : ℚ) ≤ q := Int.floor_le q
  have habove : q < q.floor + 1 := Int.lt_floor_add_one q
  unfold roundHalfEven at h ⊢
  dsimp only at h ⊢
  generalize q.floor = below at hbelow habove h ⊢
  split_ifs at h ⊢ with hless hmore heven
  · rw [abs_of_nonpos (by linarith)] at h
    linarith
  · push_cast at h
    rw [abs_of_nonneg (by linarith)] at h
    linarith
  · exact heven
  · omega

/-- An integer is the nearest one exactly if it is less than a half away, or a half and even. -/
theorem roundHalfEven_eq_iff :
    roundHalfEven q = n ↔ |q - n| < 1 / 2 ∨ |q - n| = 1 / 2 ∧ n % 2 = 0 := by
  have hnear := abs_roundHalfEven_sub q
  constructor
  · rintro rfl
    rw [abs_sub_comm] at hnear
    obtain hless | hhalf := hnear.lt_or_eq
    · exact .inl hless
    · exact .inr ⟨hhalf, roundHalfEven_of_half (by rwa [abs_sub_comm])⟩
  · intro h
    by_contra hne
    have hstep : (1 : ℚ) ≤ |(roundHalfEven q : ℚ) - n| := by
      exact_mod_cast Int.one_le_abs (sub_ne_zero.2 hne)
    have hpath := abs_sub_le (roundHalfEven q : ℚ) q n
    obtain hless | ⟨hhalf, heven⟩ := h
    · linarith
    · -- Both are a half away, so they are neighbours and both even.
      have hother : |(roundHalfEven q : ℚ) - q| = 1 / 2 := by linarith
      have hotherEven := roundHalfEven_of_half hother
      have hapart : |(roundHalfEven q : ℚ) - n| = 1 := by linarith
      have hneighbour : |roundHalfEven q - n| = 1 := by exact_mod_cast hapart
      obtain habs | habs := abs_choice (roundHalfEven q - n) <;> omega

end Double

namespace DecimalForm

open Double (twoPow twoPow_pos twoPow_add Canonical cast_significand lastPlace lastPlace_eq_iff
  roundHalfEven roundHalfEven_eq_iff)

variable {q r s : ℚ} {m : ℕ} {e : ℤ}

/-! ## Intervals -/

theorem Interval.contains_iff {i : Interval} : i.contains q = true ↔
    if i.closed then i.low ≤ q ∧ q ≤ i.high else i.low < q ∧ q < i.high := by
  unfold Interval.contains
  split_ifs <;> simp

/-- What lies between two numbers of an interval is in it. -/
theorem Interval.contains_between {i : Interval} (hq : i.contains q = true)
    (hs : i.contains s = true) (hqr : q ≤ r) (hrs : r ≤ s) : i.contains r = true := by
  rw [contains_iff] at hq hs ⊢
  split_ifs at hq hs ⊢
  · exact ⟨hq.1.trans hqr, hrs.trans hs.2⟩
  · exact ⟨hq.1.trans_le hqr, hrs.trans_lt hs.2⟩

/-- The distance from a double to the lower end of its interval, in units of the last place: the
neighbour below a power of two is nearer. -/
def gapBelow (significand : ℕ) (exponent : ℤ) : ℚ :=
  if significand = Nat.pow 2 52 ∧ -1074 < exponent then 1 / 4 else 1 / 2

theorem twoPow_half (e : ℤ) : twoPow (e - 1) = 1 / 2 * twoPow e := by
  rw [show e - 1 = -1 + e by ring, twoPow_add]
  norm_num [twoPow]

/-- The interval in units of the last place. -/
theorem contains_roundingInterval : (roundingInterval m e).contains q = true ↔
    if m % 2 = 0 then m - gapBelow m e ≤ q / twoPow e ∧ q / twoPow e ≤ m + 1 / 2
    else m - gapBelow m e < q / twoPow e ∧ q / twoPow e < m + 1 / 2 := by
  have hunit := twoPow_pos e
  have hbelow : (roundingInterval m e).low = (m - gapBelow m e) * twoPow e := by
    have hquarter : twoPow (e - 2) = 1 / 4 * twoPow e := by
      rw [show e - 2 = -2 + e by ring, twoPow_add]
      norm_num [twoPow]
    unfold roundingInterval gapBelow
    dsimp only
    rw [hquarter, twoPow_half]
    split_ifs <;> ring
  have habove : (roundingInterval m e).high = (m + 1 / 2) * twoPow e := by
    unfold roundingInterval
    dsimp only
    rw [twoPow_half]
    ring
  have hclosed : (roundingInterval m e).closed = (m % 2 == 0) := rfl
  rw [Interval.contains_iff, hbelow, habove, hclosed, le_div_iff₀ hunit, div_le_iff₀ hunit,
    lt_div_iff₀ hunit, div_lt_iff₀ hunit]
  simp only [beq_iff_eq]

theorem gapBelow_bounds (m : ℕ) (e : ℤ) : 1 / 4 ≤ gapBelow m e ∧ gapBelow m e ≤ 1 / 2 := by
  unfold gapBelow
  split_ifs <;> norm_num

/-- A number of the interval below a power of two has a last place of its own. -/
theorem rounded_below (hq : 0 < q) (he : -1074 < e) (hlow : 2 ^ 52 - 1 / 4 ≤ q / twoPow e)
    (hhigh : q / twoPow e < 2 ^ 52) :
    lastPlace q = e - 1 ∧ roundHalfEven (q / twoPow (lastPlace q)) = 2 ^ 53 := by
  have hunit := twoPow_pos e
  have hplace : lastPlace q = e - 1 := by
    rw [lastPlace_eq_iff hq]
    refine ⟨by omega, ?_, .inr ?_⟩
    · rw [show 53 + (e - 1) = 52 + e by ring, twoPow_add, ← div_lt_iff₀ hunit]
      exact hhigh
    · rw [show 52 + (e - 1) = 51 + e by ring, twoPow_add, ← le_div_iff₀ hunit]
      exact le_trans (by norm_num [twoPow]) hlow
  have hscaled : q / twoPow (e - 1) = 2 * (q / twoPow e) := by
    rw [twoPow_half, one_div, inv_mul_eq_div, div_div_eq_mul_div]
    ring
  refine ⟨hplace, ?_⟩
  rw [hplace, hscaled, roundHalfEven_eq_iff]
  push_cast
  rw [abs_of_neg (by linarith)]
  obtain hless | hhalf := hlow.lt_or_eq
  · exact .inl (by linarith)
  · exact .inr ⟨by linarith, by norm_num⟩

/-- In its interval a double is the nearest one, and its significand is even where another one is as
near. -/
theorem near_of_contains (h : (roundingInterval m e).contains q = true) :
    |q / twoPow e - m| < 1 / 2 ∨ |q / twoPow e - m| = 1 / 2 ∧ m % 2 = 0 := by
  have hgap := (gapBelow_bounds m e).2
  rw [contains_roundingInterval] at h
  split_ifs at h with heven
  · have hnear : |q / twoPow e - m| ≤ 1 / 2 := abs_le.2 ⟨by linarith, by linarith⟩
    obtain hless | hhalf := hnear.lt_or_eq
    · exact .inl hless
    · exact .inr ⟨hhalf, heven⟩
  · exact .inl (abs_lt.2 ⟨by linarith, by linarith⟩)

/-- Every other number of the interval has the last place of the double. -/
theorem rounded_at (hq : 0 < q) (h : Canonical m e)
    (hcontains : (roundingInterval m e).contains q = true)
    (hside : (m : ℚ) ≤ q / twoPow e ∨ ¬ (m = Nat.pow 2 52 ∧ -1074 < e)) :
    lastPlace q = e ∧ roundHalfEven (q / twoPow (lastPlace q)) = m := by
  have hunit := twoPow_pos e
  obtain ⟨hbits, hfull⟩ := cast_significand h
  have hnear := near_of_contains hcontains
  have hbounds : |q / twoPow e - m| ≤ 1 / 2 := hnear.elim le_of_lt fun hhalf => hhalf.1.le
  obtain ⟨hlow, hhigh⟩ := abs_le.1 hbounds
  have hplace : lastPlace q = e := by
    rw [lastPlace_eq_iff hq, twoPow_add, twoPow_add, ← div_lt_iff₀ hunit, ← le_div_iff₀ hunit]
    refine ⟨h.2.1, ?_, ?_⟩
    · change _ < (2 : ℚ) ^ 53
      linarith
    by_cases hleast : e = -1074
    · exact .inl hleast
    right
    change (2 : ℚ) ^ 52 ≤ _
    have hnormal : (2 : ℚ) ^ 52 ≤ m := hfull.resolve_left hleast
    obtain habove | hother := hside
    · exact hnormal.trans habove
    · have hne : m ≠ 2 ^ 52 := fun hm => hother ⟨hm, by have := h.2.1; omega⟩
      have hle : 2 ^ 52 ≤ m := by exact_mod_cast hnormal
      have hcast : (2 : ℚ) ^ 52 + 1 ≤ m := by exact_mod_cast (by omega : 2 ^ 52 + 1 ≤ m)
      linarith
  refine ⟨hplace, ?_⟩
  rw [hplace, roundHalfEven_eq_iff, Int.cast_natCast]
  exact hnear.imp_right fun hhalf => ⟨hhalf.1, by exact_mod_cast hhalf.2⟩

/-- The significand and the exponent that a magnitude is rounded to. -/
def roundedForm (q : ℚ) : ℕ × ℤ :=
  if (roundHalfEven (q / twoPow (lastPlace q))).toNat = Nat.pow 2 53 then
    (Nat.pow 2 52, lastPlace q + 1)
  else ((roundHalfEven (q / twoPow (lastPlace q))).toNat, lastPlace q)

theorem roundedForm_of_contains (hq : 0 < q) (h : Canonical m e)
    (hcontains : (roundingInterval m e).contains q = true) : roundedForm q = (m, e) := by
  by_cases hside : (m : ℚ) ≤ q / twoPow e ∨ ¬ (m = Nat.pow 2 52 ∧ -1074 < e)
  · obtain ⟨hplace, hrounded⟩ := rounded_at hq h hcontains hside
    have hcarry : ¬ m = Nat.pow 2 53 := h.1.ne
    rw [roundedForm, hrounded, Int.toNat_natCast, if_neg hcarry, hplace]
  · obtain ⟨hbelow, hpower⟩ := not_or.1 hside
    obtain ⟨hm, he⟩ := not_not.1 hpower
    have hcast : (m : ℚ) = 2 ^ 52 := by
      rw [hm]
      norm_num
    have heven : m % 2 = 0 := by rw [hm]
    have hgap : gapBelow m e = 1 / 4 := if_pos ⟨hm, he⟩
    rw [contains_roundingInterval, if_pos heven, hgap, hcast] at hcontains
    obtain ⟨hplace, hrounded⟩ := rounded_below hq he hcontains.1 (hcast ▸ not_le.1 hbelow)
    rw [roundedForm, hrounded, hplace, if_pos (by decide), hm, sub_add_cancel]

/-- What is rounded up to a power of two is in the interval of that power. -/
theorem contains_of_carry (hq : 0 < q)
    (hrounded : roundHalfEven (q / twoPow (lastPlace q)) = 2 ^ 53) :
    (roundingInterval (Nat.pow 2 52) (lastPlace q + 1)).contains q = true := by
  obtain ⟨hleast, -, -⟩ := (lastPlace_eq_iff hq).1 rfl
  have hnear : |q / twoPow (lastPlace q) - (2 ^ 53 : ℤ)| ≤ 1 / 2 :=
    (roundHalfEven_eq_iff.1 hrounded).elim le_of_lt fun hhalf => hhalf.1.le
  have hscaled : q / twoPow (lastPlace q) = 2 * (q / twoPow (lastPlace q + 1)) := by
    have hhalf := twoPow_half (lastPlace q + 1)
    rw [add_sub_cancel_right] at hhalf
    rw [hhalf, one_div, inv_mul_eq_div, div_div_eq_mul_div]
    ring
  have hgap : gapBelow (Nat.pow 2 52) (lastPlace q + 1) = 1 / 4 := if_pos ⟨rfl, by omega⟩
  have hcast : ((Nat.pow 2 52 : ℕ) : ℚ) = 2 ^ 52 := by norm_num
  rw [hscaled, abs_le] at hnear
  push_cast at hnear
  rw [contains_roundingInterval, if_pos (by decide), hgap, hcast]
  exact ⟨by linarith, by linarith⟩

/-- What is rounded to a multiple of its last place is in the interval of that multiple. -/
theorem contains_of_rounded (hq : 0 < q)
    (hrounded : roundHalfEven (q / twoPow (lastPlace q)) = m) :
    (roundingInterval m (lastPlace q)).contains q = true := by
  have hnear := roundHalfEven_eq_iff.1 hrounded
  rw [Int.cast_natCast] at hnear
  have hbounds : |q / twoPow (lastPlace q) - m| ≤ 1 / 2 :=
    hnear.elim le_of_lt fun hhalf => hhalf.1.le
  obtain ⟨hlow, hhigh⟩ := abs_le.1 hbounds
  rw [contains_roundingInterval]
  by_cases hnarrow : m = Nat.pow 2 52 ∧ -1074 < lastPlace q
  · -- No number below a power of two has the last place of that power.
    obtain ⟨-, -, hfull⟩ := (lastPlace_eq_iff hq).1 rfl
    have habove := hfull.resolve_left hnarrow.2.ne'
    rw [twoPow_add, ← le_div_iff₀ (twoPow_pos _)] at habove
    have hpower : (m : ℚ) = twoPow 52 := by
      rw [hnarrow.1]
      norm_num [twoPow]
    have heven : m % 2 = 0 := by rw [hnarrow.1]
    rw [if_pos heven, gapBelow, if_pos hnarrow]
    exact ⟨by linarith, by linarith⟩
  · rw [gapBelow, if_neg hnarrow]
    split_ifs with heven
    · exact ⟨by linarith, by linarith⟩
    · have hless : |q / twoPow (lastPlace q) - m| < 1 / 2 :=
        hnear.resolve_right fun hhalf => heven (by exact_mod_cast hhalf.2)
      obtain ⟨hlow, hhigh⟩ := abs_lt.1 hless
      exact ⟨by linarith, by linarith⟩

theorem contains_of_roundedForm (hq : 0 < q) (hform : roundedForm q = (m, e)) :
    (roundingInterval m e).contains q = true := by
  have hnonneg := (Double.significand_bounds hq).1
  unfold roundedForm at hform
  split_ifs at hform with hcarry
  · obtain ⟨rfl, rfl⟩ := Prod.mk.inj hform
    refine contains_of_carry hq ?_
    rw [← Int.toNat_of_nonneg hnonneg, hcarry]
    rfl
  · obtain ⟨rfl, rfl⟩ := Prod.mk.inj hform
    exact contains_of_rounded hq (Int.toNat_of_nonneg hnonneg).symm

/-- A magnitude is rounded to a double exactly if it lies in the interval of the double. -/
theorem ofMagnitude_eq_finite_iff (negative : Bool) (hq : 0 < q) (h : Canonical m e) :
    Double.ofMagnitude negative q = .finite negative m e h ↔
      (roundingInterval m e).contains q = true := by
  have hform : roundedForm q = (m, e) ↔ (roundingInterval m e).contains q = true :=
    ⟨contains_of_roundedForm hq, roundedForm_of_contains hq h⟩
  rw [← hform]
  have hunfold : Double.ofMagnitude negative q =
      if canonical : Canonical (roundedForm q).1 (roundedForm q).2 then
        .finite negative (roundedForm q).1 (roundedForm q).2 canonical
      else .infinity negative := by
    unfold Double.ofMagnitude
    rw [if_neg hq.ne']
    rfl
  rw [hunfold]
  constructor
  · intro heq
    split_ifs at heq with hcanonical
    · injection heq with _ hm he
      exact Prod.ext hm he
  · intro heq
    simp only [heq, dif_pos h]

/-- A double lies in its interval, with all numbers that are closer than a part of `2 ^ 54`. -/
theorem contains_of_near (h : Canonical m e)
    (hnear : |q - m * twoPow e| < m * twoPow e / 2 ^ 54) :
    (roundingInterval m e).contains q = true := by
  have hunit := twoPow_pos e
  obtain ⟨hbits, -⟩ := cast_significand h
  have hscaled : |q / twoPow e - m| < m / 2 ^ 54 := by
    have hdistance : q / twoPow e - m = (q - m * twoPow e) / twoPow e := by
      rw [sub_div, mul_div_cancel_right₀ _ hunit.ne']
    rw [hdistance, abs_div, abs_of_pos hunit, div_lt_iff₀ hunit]
    calc |q - m * twoPow e| < m * twoPow e / 2 ^ 54 := hnear
      _ = m / 2 ^ 54 * twoPow e := by ring
  have hgap : (m : ℚ) / 2 ^ 54 ≤ gapBelow m e ∧ (m : ℚ) / 2 ^ 54 ≤ 1 / 2 := by
    have hhalf : (m : ℚ) / 2 ^ 54 ≤ 1 / 2 := by
      rw [div_le_iff₀ (by norm_num)]
      linarith
    refine ⟨?_, hhalf⟩
    unfold gapBelow
    split_ifs with hnarrow
    · rw [hnarrow.1]
      norm_num
    · exact hhalf
  obtain ⟨hlow, hhigh⟩ := abs_lt.1 hscaled
  rw [contains_roundingInterval]
  split_ifs
  · exact ⟨by linarith, by linarith⟩
  · exact ⟨by linarith, by linarith⟩

@[simp]
theorem contains_self (m : ℕ) (e : ℤ) : (roundingInterval m e).contains (m * twoPow e) = true := by
  have hgap := (gapBelow_bounds m e).1
  rw [contains_roundingInterval, mul_div_cancel_right₀ _ (twoPow_pos e).ne']
  split_ifs
  · exact ⟨by linarith, by linarith⟩
  · exact ⟨by linarith, by linarith⟩

end DecimalForm

namespace Double

/-- A magnitude below the half of the least double is rounded to zero. -/
theorem ofMagnitude_eq_zero (negative : Bool) (hnonneg : 0 ≤ q) (hq : q < twoPow (-1075)) :
    ofMagnitude negative q = zero negative := by
  obtain rfl | hpos := hnonneg.eq_or_lt
  · rw [ofMagnitude, if_pos rfl]
  have hplace : lastPlace q = -1074 := by
    refine (lastPlace_eq_iff hpos).2 ⟨le_refl _, ?_, .inl rfl⟩
    exact hq.trans (twoPow_lt.2 (by norm_num))
  have hrounded : roundHalfEven (q / twoPow (-1074)) = 0 := by
    have hhalf : q / twoPow (-1074) < 1 / 2 := by
      rw [div_lt_iff₀ (twoPow_pos _)]
      calc q < twoPow (-1 + -1074) := hq
        _ = 1 / 2 * twoPow (-1074) := by
            rw [twoPow_add]
            norm_num [twoPow]
    refine roundHalfEven_eq_iff.2 (.inl ?_)
    rw [Int.cast_zero, sub_zero, abs_of_pos (div_pos hpos (twoPow_pos _))]
    exact hhalf
  unfold ofMagnitude
  simp only [if_neg hpos.ne', hplace, hrounded]
  rfl

end Double

end SceneTemplates
