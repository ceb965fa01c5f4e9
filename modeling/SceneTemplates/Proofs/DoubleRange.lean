import SceneTemplates.Proofs.RoundedValues

/-!
# The range of doubles

A magnitude is rounded to the infinity exactly if it reaches the middle between the largest double
and the next power of two. Below it the result is a double, and what a double stands for is rounded
to that double again. So an integer has a double unless it lies beyond the largest one by half of
the last place.
-/
namespace SceneTemplates.Double

variable {q : ℚ} {n : ℤ} {x : Double}

/-- The least magnitude that is rounded to an infinity. -/
def overflowBound : ℚ := twoPow 1024 - twoPow 970

theorem overflowBound_eq : overflowBound = (2 ^ 53 - 1 / 2) * twoPow 971 := by
  have hwhole : twoPow 1024 = 2 ^ 53 * twoPow 971 := twoPow_add 53 971
  have hhalf : twoPow 971 = 2 * twoPow 970 := twoPow_add 1 970
  rw [overflowBound, hwhole, sub_mul, hhalf]
  ring

theorem maxFinite_eq : (maxFinite : ℚ) = (2 ^ 53 - 1) * twoPow 971 := by
  have hpow : ∀ k : ℕ, Int.pow 2 k = 2 ^ k := fun _ => rfl
  have hunit := twoPow_natCast 971
  rw [maxFinite, hpow, hpow, Int.cast_mul, ← hunit]
  norm_num

theorem maxFinite_pos : 0 < maxFinite := by decide +kernel

theorem maxFinite_lt_overflowBound : (maxFinite : ℚ) < overflowBound := by
  rw [maxFinite_eq, overflowBound_eq]
  exact mul_lt_mul_of_pos_right (by norm_num) (twoPow_pos _)

/-! ## Where the infinity begins -/

/-- A number is rounded below an even integer exactly if it lies more than a half below it: the
middle goes to the even neighbour. -/
@[simp] theorem roundHalfEven_lt_iff (hn : n % 2 = 0) : roundHalfEven q < n ↔ q < n - 1 / 2 := by
  have hbelow : (q.floor : ℚ) ≤ q := Int.floor_le q
  have habove : q < q.floor + 1 := Int.lt_floor_add_one q
  unfold roundHalfEven
  dsimp only
  generalize q.floor = below at hbelow habove ⊢
  obtain hfar | hnear | hnear := lt_trichotomy (below + 1) n
  · have hcast : (below : ℚ) + 2 ≤ n := by exact_mod_cast (by omega : below + 2 ≤ n)
    refine iff_of_true ?_ (by linarith)
    split_ifs <;> omega
  · have hcast : (below : ℚ) + 1 = n := by exact_mod_cast hnear
    have hodd : ¬ below % 2 = 0 := by omega
    rw [if_neg hodd, ite_self, hnear]
    split_ifs with hrest
    · exact iff_of_true (by omega) (by linarith)
    · exact iff_of_false (lt_irrefl n) (by linarith)
  · have hcast : (n : ℚ) ≤ below := by exact_mod_cast (by omega : n ≤ below)
    refine iff_of_false ?_ (by linarith)
    split_ifs <;> omega

/-- A magnitude is too large for the format exactly if it reaches the bound. -/
theorem lt_overflowBound_iff (hq : 0 < q) :
    (if (roundHalfEven (q / twoPow (lastPlace q))).toNat = Nat.pow 2 53 then lastPlace q + 1
      else lastPlace q) ≤ 971 ↔ q < overflowBound := by
  obtain ⟨leading, hlow, hhigh, hplace⟩ := exists_leading hq
  obtain ⟨hnonneg, hmost, -⟩ := significand_bounds hq
  have hpow : Nat.pow 2 53 = 2 ^ 53 := rfl
  have hpart : 0 < twoPow 970 := twoPow_pos 970
  obtain hsmall | hlast | hlarge := lt_trichotomy leading 1023
  · have hbound : q < twoPow 1023 := hhigh.trans_le (twoPow_le.2 (by omega))
    have hdouble : twoPow 1024 = 2 * twoPow 1023 := twoPow_add 1 1023
    have hless : twoPow 970 < twoPow 1023 := twoPow_lt.2 (by norm_num)
    refine iff_of_true ?_ (by unfold overflowBound; linarith)
    split_ifs <;> omega
  · have hunit : lastPlace q = 971 := by omega
    have hscaled : q < overflowBound ↔ q / twoPow 971 < (2 ^ 53 : ℤ) - 1 / 2 := by
      rw [div_lt_iff₀ (twoPow_pos 971), overflowBound_eq]
      norm_num
    rw [hscaled, ← roundHalfEven_lt_iff (by norm_num)]
    rw [hunit] at hnonneg hmost ⊢
    split_ifs <;> omega
  · have hbound : twoPow 1024 ≤ q := (twoPow_le.2 (by omega)).trans hlow
    refine iff_of_false ?_ (by unfold overflowBound; linarith)
    split_ifs <;> omega

/-- Rounding gives the infinity for the magnitudes from the bound on, and a finite double for those
below it. -/
theorem ofMagnitude_eq (negative : Bool) (hq : 0 < q) :
    (q < overflowBound →
      ∃ m e h, ofMagnitude negative q = finite negative m e h ∧
        (m : ℚ) * twoPow e = roundHalfEven (q / twoPow (lastPlace q)) * twoPow (lastPlace q)) ∧
    (overflowBound ≤ q → ofMagnitude negative q = infinity negative) := by
  obtain ⟨m, e, hform, hvalue, hcanonical, -⟩ := exists_form hq
  have hexponent := lt_overflowBound_iff hq
  have he : (if (roundHalfEven (q / twoPow (lastPlace q))).toNat = Nat.pow 2 53 then
      lastPlace q + 1 else lastPlace q) = e := by
    split_ifs at hform ⊢ <;> exact (Prod.mk.inj hform).2
  rw [he] at hexponent
  unfold ofMagnitude
  simp only [if_neg hq.ne', hform]
  constructor
  · intro hless
    have hfits := hcanonical (hexponent.2 hless)
    exact ⟨m, e, hfits, dif_pos hfits, hvalue⟩
  · intro hle
    exact dif_neg fun hfits => not_lt.2 hle (hexponent.1 hfits.2.2.1)

theorem isFinite_ofMagnitude (negative : Bool) (hq : 0 ≤ q) (h : q < overflowBound) :
    (ofMagnitude negative q).isFinite = true := by
  obtain rfl | hpos := hq.eq_or_lt
  · rw [ofMagnitude, if_pos rfl]
    rfl
  · obtain ⟨m, e, hfits, hfinite, -⟩ := (ofMagnitude_eq negative hpos).1 h
    rw [hfinite]
    rfl

theorem ofMagnitude_eq_infinity_iff (negative : Bool) (hq : 0 ≤ q) :
    ofMagnitude negative q = infinity negative ↔ overflowBound ≤ q := by
  constructor
  · intro hinfinite
    by_contra hless
    have hfinite := isFinite_ofMagnitude negative hq (not_le.1 hless)
    rw [hinfinite] at hfinite
    cases hfinite
  · intro hle
    have hmax : (0 : ℚ) < maxFinite := by exact_mod_cast maxFinite_pos
    have hpos : 0 < q := hmax.trans (maxFinite_lt_overflowBound.trans_le hle)
    exact (ofMagnitude_eq negative hpos).2 hle

@[simp]
theorem isNaN_ofMagnitude (negative : Bool) (q : ℚ) : (ofMagnitude negative q).isNaN = false := by
  unfold ofMagnitude
  dsimp only
  split_ifs <;> rfl

@[simp] theorem isNegative_ofMagnitude (negative : Bool) (q : ℚ) :
    (ofMagnitude negative q).isNegative = negative := by
  unfold ofMagnitude
  dsimp only
  split_ifs <;> rfl

@[simp] theorem neg_ofMagnitude (negative : Bool) (q : ℚ) :
    (ofMagnitude negative q).neg = ofMagnitude (!negative) q := by
  unfold ofMagnitude
  dsimp only
  split_ifs <;> rfl

/-! ## What a double stands for -/

/-- The bits of a significand. -/
theorem cast_significand {m : ℕ} {e : ℤ} (h : Canonical m e) :
    (m : ℚ) + 1 ≤ 2 ^ 53 ∧ (e = -1074 ∨ (2 : ℚ) ^ 52 ≤ m) := by
  obtain ⟨hbits, -, -, hfull⟩ := h
  have hmost : m + 1 ≤ 2 ^ 53 := hbits
  refine ⟨by exact_mod_cast hmost, ?_⟩
  obtain hfull | hleast := hfull
  · have hfew : 2 ^ 52 ≤ m := hfull
    exact .inr (by exact_mod_cast hfew)
  · exact .inl hleast

/-- The value of a double is rounded to that double. -/
@[simp] theorem ofMagnitude_self (negative : Bool) {m : ℕ} {e : ℤ} (h : Canonical m e) :
    ofMagnitude negative (m * twoPow e) = finite negative m e h := by
  have hpow : Nat.pow 2 53 = 2 ^ 53 ∧ Nat.pow 2 52 = 2 ^ 52 := ⟨rfl, rfl⟩
  obtain ⟨hbits, hleast, hmost, hfull⟩ := id h
  obtain rfl | hm := m.eq_zero_or_pos
  · have he : e = -1074 := by omega
    subst he
    simp [ofMagnitude, zero]
  have hunit := twoPow_pos e
  have hpos : (0 : ℚ) < m * twoPow e := mul_pos (by exact_mod_cast hm) hunit
  have hplace : lastPlace (m * twoPow e) = e := by
    obtain ⟨hmore, hfew⟩ := cast_significand h
    rw [lastPlace_eq_iff hpos, twoPow_add, twoPow_add]
    have hless : (m : ℚ) < twoPow 53 := (lt_add_one _).trans_le hmore
    exact ⟨hleast, mul_lt_mul_of_pos_right hless hunit,
      hfew.imp_right fun hle => mul_le_mul_of_nonneg_right hle hunit.le⟩
  have hrounded : roundHalfEven (m * twoPow e / twoPow e) = m := by
    rw [mul_div_cancel_right₀ _ hunit.ne']
    exact roundHalfEven_intCast m
  have hcarry : ¬ m = Nat.pow 2 53 := by omega
  unfold ofMagnitude
  simp only [if_neg hpos.ne', hplace, hrounded, Int.toNat_natCast, if_neg hcarry, dif_pos h]

theorem ofRat_self (hx : x.toRat? = some q) (hq : q ≠ 0) : ofRat q = x := by
  cases x with
  | nan | infinity => cases hx
  | finite negative m e h =>
    have hsize : (0 : ℚ) ≤ m * twoPow e := mul_nonneg (Nat.cast_nonneg m) (twoPow_pos e).le
    have hvalue := Option.some.inj hx
    have hself := ofMagnitude_self negative h
    cases negative with
    | false =>
      rw [if_neg Bool.false_ne_true] at hvalue
      have hsign : ¬ q < 0 := not_lt.2 (hvalue ▸ hsize)
      rw [ofRat, if_neg hsign, decide_eq_false hsign, ← hvalue, hself]
    | true =>
      rw [if_pos rfl] at hvalue
      have hsign : q < 0 := lt_of_le_of_ne (by linarith) hq
      rw [ofRat, if_pos hsign, decide_eq_true hsign, ← hvalue, neg_neg, hself]

/-- No double is larger than the largest one. -/
theorem abs_le_maxFinite (hx : x.toRat? = some q) : |q| ≤ maxFinite := by
  cases x with
  | nan | infinity => cases hx
  | finite negative m e h =>
    obtain ⟨hbits, -, hmost, -⟩ := id h
    have hsize : (0 : ℚ) ≤ m * twoPow e := mul_nonneg (Nat.cast_nonneg m) (twoPow_pos e).le
    have habs : |q| = m * twoPow e := by
      rw [← Option.some.inj hx]
      cases negative <;> simp [abs_of_nonneg hsize]
    have hm : (m : ℚ) ≤ 2 ^ 53 - 1 := by
      have hnat : m + 1 ≤ 2 ^ 53 := hbits
      have hcast : (m : ℚ) + 1 ≤ 2 ^ 53 := by exact_mod_cast hnat
      linarith
    rw [habs, maxFinite_eq]
    exact mul_le_mul hm (twoPow_le.2 hmost) (twoPow_pos e).le (by norm_num)

/-! ## Integers as doubles -/

theorem ofRat_natCast (n : ℕ) : ofRat n = ofMagnitude false n := by
  have hsign : ¬ (n : ℚ) < 0 := not_lt.2 (Nat.cast_nonneg n)
  rw [ofRat, if_neg hsign, decide_eq_false hsign]

theorem ofRat_eq (q : ℚ) : ofRat q = ofMagnitude (decide (q < 0)) |q| := by
  have hsize : (if q < 0 then -q else q) = |q| := by
    split_ifs with hneg
    · exact (abs_of_neg hneg).symm
    · exact (abs_of_nonneg (not_lt.1 hneg)).symm
  rw [ofRat, hsize]

theorem ofRat_eq_infinity_iff (q : ℚ) :
    ofRat q = infinity (decide (q < 0)) ↔ overflowBound ≤ |q| := by
  rw [ofRat_eq]
  exact ofMagnitude_eq_infinity_iff _ (abs_nonneg q)

/-- Below the bound a number is rounded to a double. -/
theorem exists_toRat?_ofRat (h : |q| < overflowBound) :
    ∃ v, (ofRat q).toRat? = some v ∧ RoundsTo q v := by
  obtain hrounds | ⟨hinfinite, -⟩ := ofRat_rounds q
  · exact hrounds
  · exact absurd ((ofRat_eq_infinity_iff q).1 hinfinite) (not_le.2 h)

/-- No integer but zero is rounded to zero. -/
theorem RoundsTo.ne_zero {v : ℚ} (h : RoundsTo n v) (hn : n ≠ 0) : v ≠ 0 := by
  rintro rfl
  have hone : (1 : ℚ) ≤ |(n : ℚ)| := by exact_mod_cast Int.one_le_abs hn
  have hnear := h.near
  have hplace : twoPow (-53) ≤ 1 / 4 := by norm_num [twoPow]
  have hleast : twoPow (-1075) ≤ twoPow (-53) := twoPow_le.2 (by norm_num)
  rw [zero_sub, abs_neg] at hnear
  have hpart : |(n : ℚ)| * twoPow (-53) ≤ |(n : ℚ)| * (1 / 4) :=
    mul_le_mul_of_nonneg_left hplace (abs_nonneg _)
  linarith

theorem isZero_iff_of_toRat? (hx : x.toRat? = some q) : x.isZero = true ↔ q = 0 := by
  cases x with
  | nan | infinity => cases hx
  | finite negative m e h =>
    have hunit := (twoPow_pos e).ne'
    rw [← Option.some.inj hx]
    cases negative <;> simp [isZero, hunit]

/-- An integer that is not beyond the doubles has one, which is zero only for zero. -/
theorem exists_ofInt? (h : |n| ≤ maxFinite) :
    ∃ x, ofInt? n = some x ∧ x.isZero = (n == 0) := by
  have hbound : |(n : ℚ)| < overflowBound := by
    refine lt_of_le_of_lt ?_ maxFinite_lt_overflowBound
    exact_mod_cast h
  obtain ⟨v, hv, hrounds⟩ := exists_toRat?_ofRat hbound
  have hzero : v = 0 ↔ n = 0 := by
    constructor
    · intro hv
      by_contra hn
      exact hrounds.ne_zero hn hv
    · rintro rfl
      rw [hrounds.exact 0 Int.cast_zero (by norm_num), Int.cast_zero]
  refine ⟨ofRat n, ?_, ?_⟩
  · unfold ofInt?
    split
    · next hinfinite =>
      rw [hinfinite] at hv
      cases hv
    · rfl
  · rw [Bool.eq_iff_iff, isZero_iff_of_toRat? hv, beq_iff_eq]
    exact hzero

end SceneTemplates.Double
