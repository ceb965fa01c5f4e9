import SceneTemplates.Proofs.RoundingIntervals

/-!
# Shortest decimals

The decimal that a double is written with is rounded to that double again, and no decimal with fewer
digits is. A decimal of some length that lies in the rounding interval has a neighbour of the value
on the grid of its length that lies there too, so the search for the first length with such a
neighbour misses none. The neighbour with seventeen digits is always near enough.
-/
namespace SceneTemplates.DecimalForm

open Double (twoPow twoPow_pos Canonical roundHalfEven)

/-! ## Powers of ten and digits -/

section Digits

variable {e e' : ℤ} {n k z : ℕ}

theorem tenPow_pos (e : ℤ) : 0 < tenPow e := zpow_pos (by norm_num) e

theorem tenPow_add (e e' : ℤ) : tenPow (e + e') = tenPow e * tenPow e' :=
  zpow_add₀ (by norm_num) e e'

@[simp] theorem tenPow_le : tenPow e ≤ tenPow e' ↔ e ≤ e' := zpow_le_zpow_iff_right₀ (by norm_num)

@[simp] theorem tenPow_lt : tenPow e < tenPow e' ↔ e < e' := zpow_lt_zpow_iff_right₀ (by norm_num)

theorem tenPow_natCast (n : ℕ) : tenPow n = ((10 ^ n : ℕ) : ℚ) := by
  rw [tenPow, zpow_natCast]
  push_cast
  rfl

theorem digitCount_pos (n : ℕ) : 0 < digitCount n := by
  rw [digitCount, List.length_pos_iff]
  exact Nat.toDigits_ne_nil

@[simp] theorem digitCount_le_iff (hk : 0 < k) : digitCount n ≤ k ↔ n < 10 ^ k :=
  Nat.length_toDigits_le_iff (by norm_num) hk

theorem lt_pow_digitCount (n : ℕ) : n < 10 ^ digitCount n :=
  (digitCount_le_iff (digitCount_pos n)).1 (le_refl _)

theorem pow_le_of_pos (hn : 0 < n) : 10 ^ (digitCount n - 1) ≤ n := by
  have hcount := digitCount_pos n
  by_cases hone : digitCount n = 1
  · rw [hone]
    exact hn
  · rw [← not_lt, ← digitCount_le_iff (by omega)]
    omega

theorem digitCount_eq (hlow : 10 ^ k ≤ n) (hhigh : n < 10 ^ (k + 1)) : digitCount n = k + 1 := by
  have hmost := (digitCount_le_iff k.succ_pos).2 hhigh
  have hless : 10 ^ k < 10 ^ digitCount n := hlow.trans_lt (lt_pow_digitCount n)
  have hleast := (Nat.pow_lt_pow_iff_right (by norm_num)).1 hless
  omega

@[simp]
theorem digitCount_mul_pow (hn : 0 < n) (z : ℕ) : digitCount (n * 10 ^ z) = digitCount n + z := by
  have hcount := digitCount_pos n
  have hlow := Nat.mul_le_mul_right (10 ^ z) (pow_le_of_pos hn)
  have hunit : 0 < 10 ^ z := Nat.pow_pos (by norm_num)
  have hhigh := Nat.mul_lt_mul_of_pos_right (lt_pow_digitCount n) hunit
  rw [← pow_add] at hlow hhigh
  have heq : digitCount n + z = digitCount n - 1 + z + 1 := by omega
  rw [heq] at hhigh ⊢
  exact digitCount_eq hlow hhigh

theorem digitCount_bounds (hn : 0 < n) :
    tenPow (digitCount n - 1) ≤ n ∧ (n : ℚ) < tenPow (digitCount n) := by
  have hcount := digitCount_pos n
  have hpred : ((digitCount n : ℤ) - 1) = (digitCount n - 1 : ℕ) := by omega
  rw [hpred, tenPow_natCast, tenPow_natCast]
  exact ⟨Nat.cast_le.2 (pow_le_of_pos hn), Nat.cast_lt.2 (lt_pow_digitCount n)⟩

/-- The point of a positive number stands between two powers of ten. -/
theorem pointOf_bounds {q : ℚ} (hq : 0 < q) :
    tenPow (pointOf q - 1) ≤ q ∧ q < tenPow (pointOf q) := by
  have hnum : 0 < q.num := Rat.num_pos.2 hq
  have hden : (0 : ℚ) < q.den := by exact_mod_cast q.den_pos
  have hvalue : q * q.den = q.num.natAbs := by
    rw [Nat.cast_natAbs, abs_of_pos hnum]
    exact Rat.mul_den_eq_num q
  obtain ⟨hnumLow, hnumHigh⟩ := digitCount_bounds (Int.natAbs_pos.2 hnum.ne')
  obtain ⟨hdenLow, hdenHigh⟩ := digitCount_bounds q.den_pos
  rw [← hvalue] at hnumLow hnumHigh
  generalize hguess : (digitCount q.num.natAbs : ℤ) - digitCount q.den = guess
  have hlow : tenPow (guess - 1) < q := by
    refine lt_of_mul_lt_mul_right ?_ hden.le
    calc tenPow (guess - 1) * q.den < tenPow (guess - 1) * tenPow (digitCount q.den) :=
          mul_lt_mul_of_pos_left hdenHigh (tenPow_pos _)
      _ = tenPow (digitCount q.num.natAbs - 1) := by
          rw [← tenPow_add, ← hguess]
          congr 1
          ring
      _ ≤ q * q.den := hnumLow
  have hhigh : q < tenPow (guess + 1) := by
    refine lt_of_mul_lt_mul_right ?_ hden.le
    calc q * q.den < tenPow (digitCount q.num.natAbs) := hnumHigh
      _ = tenPow (guess + 1) * tenPow (digitCount q.den - 1) := by
          rw [← tenPow_add, ← hguess]
          congr 1
          ring
      _ ≤ tenPow (guess + 1) * q.den := mul_le_mul_of_nonneg_left hdenLow (tenPow_pos _).le
  unfold pointOf
  simp only [hguess]
  split_ifs with hless
  · exact ⟨hlow.le, hless⟩
  · rw [add_sub_cancel_right]
    exact ⟨not_lt.1 hless, hhigh⟩

end Digits

/-! ## Values of decimals -/

def value (d : DecimalForm) : ℚ := d.digits * tenPow (d.point - digitCount d.digits)

theorem value_bounds {d : DecimalForm} (hd : 0 < d.digits) :
    tenPow (d.point - 1) ≤ d.value ∧ d.value < tenPow d.point := by
  obtain ⟨hlow, hhigh⟩ := digitCount_bounds hd
  have hunit := tenPow_pos (d.point - digitCount d.digits)
  have hleast := mul_le_mul_of_nonneg_right hlow hunit.le
  have hmost := mul_lt_mul_of_pos_right hhigh hunit
  rw [← tenPow_add] at hleast hmost
  rw [add_sub_cancel] at hmost
  rw [show (digitCount d.digits : ℤ) - 1 + (d.point - digitCount d.digits) = d.point - 1 by ring]
    at hleast
  exact ⟨hleast, hmost⟩

/-! ## Decimals of one length -/

section Grid

variable {q : ℚ} {i : Interval} {point : ℤ} {length n : ℕ} {d : DecimalForm}

/-- The number of grid units below a number. -/
def below (q : ℚ) (point : ℤ) (length : ℕ) : ℕ := (q / tenPow (point - length)).floor.toNat

theorem floor_nonneg (hq : 0 ≤ q) (point : ℤ) (length : ℕ) :
    0 ≤ (q / tenPow (point - length)).floor :=
  Int.floor_nonneg.2 (div_nonneg hq (tenPow_pos _).le)

theorem below_bounds (hq : 0 ≤ q) (point : ℤ) (length : ℕ) :
    (below q point length : ℚ) * tenPow (point - length) ≤ q ∧
      q < (below q point length + 1 : ℕ) * tenPow (point - length) := by
  have hunit := tenPow_pos (point - length)
  have hfloor := floor_nonneg hq point length
  have hcast : (below q point length : ℚ) = (q / tenPow (point - length)).floor := by
    rw [below, ← Int.cast_natCast, Int.toNat_of_nonneg hfloor]
  rw [Nat.cast_add, Nat.cast_one, hcast, ← le_div_iff₀ hunit, ← div_lt_iff₀ hunit]
  exact ⟨Int.floor_le _, Int.lt_floor_add_one _⟩

theorem roundHalfEven_eq_below (hq : 0 ≤ q) (point : ℤ) (length : ℕ) :
    (roundHalfEven (q / tenPow (point - length))).toNat = below q point length ∨
      (roundHalfEven (q / tenPow (point - length))).toNat = below q point length + 1 := by
  have hfloor := floor_nonneg hq point length
  unfold roundHalfEven below
  dsimp only
  generalize (q / tenPow (point - length)).floor = floor at hfloor ⊢
  split_ifs <;> omega

theorem ofLength?_eq (q : ℚ) (i : Interval) (point : ℤ) (length : ℕ) :
    ofLength? q i point length =
      if i.contains (below q point length * tenPow (point - length)) then
        if i.contains ((below q point length + 1 : ℕ) * tenPow (point - length)) then
          some ⟨(roundHalfEven (q / tenPow (point - length))).toNat, point⟩
        else some ⟨below q point length, point⟩
      else if i.contains ((below q point length + 1 : ℕ) * tenPow (point - length)) then
        some ⟨below q point length + 1, point⟩
      else none := by
  have hbelow : (q / tenPow (point - length)).floor.toNat = below q point length := rfl
  simp only [ofLength?, List.filter, hbelow]
  cases i.contains (below q point length * tenPow (point - length)) <;>
    cases i.contains ((below q point length + 1 : ℕ) * tenPow (point - length)) <;> rfl

/-- What is found on the grid of a length is a neighbour of the number in the interval. -/
theorem ofLength?_eq_some (hq : 0 ≤ q) (h : ofLength? q i point length = some d) :
    ∃ n, d = ⟨n, point⟩ ∧ (n = below q point length ∨ n = below q point length + 1) ∧
      i.contains (n * tenPow (point - length)) = true := by
  rw [ofLength?_eq] at h
  split_ifs at h with hbelow habove habove
  · cases h
    obtain hround | hround := roundHalfEven_eq_below hq point length
    · exact ⟨_, by rw [hround], .inl rfl, hbelow⟩
    · exact ⟨_, by rw [hround], .inr rfl, habove⟩
  · cases h
    exact ⟨_, rfl, .inl rfl, hbelow⟩
  · cases h
    exact ⟨_, rfl, .inr rfl, habove⟩

/-- Where the interval has a point of the grid, a neighbour of the number is found. -/
theorem ofLength?_ne_none (hq : 0 ≤ q) (hself : i.contains q = true)
    (hpoint : i.contains (n * tenPow (point - length)) = true) :
    ofLength? q i point length ≠ none := by
  obtain ⟨hlow, hhigh⟩ := below_bounds hq point length
  have hunit := tenPow_pos (point - length)
  have hfound : i.contains (below q point length * tenPow (point - length)) = true ∨
      i.contains ((below q point length + 1 : ℕ) * tenPow (point - length)) = true := by
    obtain hn | hn := Nat.lt_or_ge (below q point length) n
    · have hle : (below q point length + 1 : ℕ) * tenPow (point - length) ≤
          n * tenPow (point - length) :=
        mul_le_mul_of_nonneg_right (Nat.cast_le.2 hn) hunit.le
      exact .inr (Interval.contains_between hself hpoint hhigh.le hle)
    · have hle : n * tenPow (point - length) ≤ below q point length * tenPow (point - length) :=
        mul_le_mul_of_nonneg_right (Nat.cast_le.2 hn) hunit.le
      exact .inl (Interval.contains_between hpoint hself hle hlow)
  rw [ofLength?_eq]
  split_ifs with hbelow habove habove
  · simp
  · simp
  · simp
  · exact absurd hfound (not_or.2 ⟨hbelow, habove⟩)

/-- What the search ends with: the first length with a neighbour in the interval, or the last
length. -/
structure Found (q : ℚ) (i : Interval) (point : ℤ) (first last length n : ℕ) : Prop where
  first_le : first ≤ length
  le_last : length ≤ last
  neighbour : n = below q point length ∨ n = below q point length + 1
  least : ∀ k, first ≤ k → k < length → ofLength? q i point k = none
  inside : i.contains (n * tenPow (point - length)) = true ∨
    length = last ∧ n = (roundHalfEven (q / tenPow (point - length))).toNat

theorem search_found (hq : 0 ≤ q) (i : Interval) (point : ℤ) (fuel first : ℕ) :
    ∃ length n, search q i point fuel first = normalize length ⟨n, point⟩ ∧
      Found q i point first (first + fuel) length n := by
  induction fuel generalizing first with
  | zero =>
    exact ⟨first, _, rfl, le_refl _, le_refl _, roundHalfEven_eq_below hq point first,
      fun k hk hless => absurd hless (not_lt.2 hk), .inr ⟨rfl, rfl⟩⟩
  | succ fuel ih =>
    rw [search]
    cases hlength : ofLength? q i point first with
    | some d =>
      obtain ⟨n, rfl, hneighbour, hinside⟩ := ofLength?_eq_some hq hlength
      exact ⟨first, n, rfl, le_refl _, by omega, hneighbour,
        fun k hk hless => absurd hless (not_lt.2 hk), .inl hinside⟩
    | none =>
      obtain ⟨length, n, hsearch, hfound⟩ := ih (first + 1)
      refine ⟨length, n, hsearch, by have := hfound.first_le; omega,
        by have := hfound.le_last; omega, hfound.neighbour, fun k hk hless => ?_, ?_⟩
      · obtain rfl | hlater := hk.eq_or_lt
        · exact hlength
        · exact hfound.least k hlater hless
      · rw [show first + (fuel + 1) = first + 1 + fuel by omega]
        exact hfound.inside

end Grid

/-! ## Digits without zeros at the end -/

theorem strip_spec {fuel n : ℕ} (hn : 0 < n) (hfuel : n < 10 ^ fuel) :
    ∃ z, n = normalize.strip fuel n * 10 ^ z ∧ normalize.strip fuel n % 10 ≠ 0 := by
  induction fuel generalizing n with
  | zero =>
    rw [pow_zero] at hfuel
    omega
  | succ fuel ih =>
    rw [normalize.strip]
    by_cases hzero : n % 10 = 0 ∧ n ≠ 0
    · rw [if_pos hzero]
      obtain ⟨z, hz, hlast⟩ := ih (n := n / 10) (by omega) (by rw [pow_succ] at hfuel; omega)
      refine ⟨z + 1, ?_, hlast⟩
      rw [pow_succ, ← mul_assoc, ← hz]
      omega
    · rw [if_neg hzero]
      exact ⟨0, by rw [pow_zero, mul_one], fun hlast => hzero ⟨hlast, hn.ne'⟩⟩

/-- A number of a grid has as many digits as the grid, or it is the next power of ten. -/
theorem digitCount_grid {length n : ℕ} (hlength : 0 < length) (hlow : 10 ^ (length - 1) ≤ n)
    (hhigh : n ≤ 10 ^ length) :
    digitCount n = length ∨ n = 10 ^ length ∧ digitCount n = length + 1 := by
  obtain hless | rfl := hhigh.lt_or_eq
  · have heq := digitCount_eq (k := length - 1) hlow (by rwa [Nat.sub_add_cancel hlength])
    omega
  · exact .inr ⟨rfl, digitCount_eq (le_refl _)
      (Nat.pow_lt_pow_right (by norm_num) (Nat.lt_succ_self _))⟩

/-- A decimal without zeros at its end has the same value, and no more digits than the length. -/
theorem normalize_spec {length n : ℕ} (point : ℤ) (hlength : 0 < length) (hmost : length < 20)
    (hlow : 10 ^ (length - 1) ≤ n) (hhigh : n ≤ 10 ^ length) :
    0 < (normalize length ⟨n, point⟩).digits ∧ (normalize length ⟨n, point⟩).digits % 10 ≠ 0 ∧
      (normalize length ⟨n, point⟩).value = n * tenPow (point - length) ∧
      digitCount (normalize length ⟨n, point⟩).digits ≤ length ∧
      point ≤ (normalize length ⟨n, point⟩).point := by
  have hn : 0 < n := (Nat.pow_pos (by norm_num)).trans_le hlow
  have hfuel : n < 10 ^ 20 := hhigh.trans_lt (Nat.pow_lt_pow_right (by norm_num) hmost)
  obtain ⟨z, hz, hlast⟩ := strip_spec hn hfuel
  have hpos : 0 < normalize.strip 20 n := by
    by_contra hzero
    omega
  have hcount := digitCount_mul_pow hpos z
  rw [← hz] at hcount
  have hcarried : digitCount n = length ∨ digitCount n = length + 1 ∧ z ≠ 0 := by
    refine (digitCount_grid hlength hlow hhigh).imp_right fun ⟨hpower, heq⟩ => ⟨heq, ?_⟩
    rintro rfl
    rw [pow_zero, mul_one] at hz
    obtain ⟨k, rfl⟩ := Nat.exists_eq_succ_of_ne_zero hlength.ne'
    rw [← hz, hpower, pow_succ] at hlast
    omega
  have hform : normalize length ⟨n, point⟩ =
      ⟨normalize.strip 20 n, point + (digitCount n - length : ℕ)⟩ := rfl
  rw [hform]
  refine ⟨hpos, hlast, ?_, ?_, ?_⟩
  · have hvalue : (n : ℚ) = normalize.strip 20 n * tenPow z := by
      rw [tenPow_natCast, ← Nat.cast_mul, ← hz]
    rw [value, hvalue, mul_assoc, ← tenPow_add]
    congr 2
    dsimp only
    omega
  · dsimp only
    omega
  · dsimp only
    omega

/-! ## The shortest decimal -/

/-- A decimal of an interval with no more digits than any other of it, and no zero at its end. -/
structure IsShortest (i : Interval) (d : DecimalForm) : Prop where
  pos : 0 < d.digits
  last : d.digits % 10 ≠ 0
  inside : i.contains d.value = true
  least : ∀ other : DecimalForm, 0 < other.digits → i.contains other.value = true →
    digitCount d.digits ≤ digitCount other.digits

section Shortest

variable {q : ℚ} {i : Interval} {length n : ℕ} {m : ℕ} {e : ℤ}

theorem tenPow_eq_grid (point : ℤ) (length : ℕ) :
    tenPow point = (10 ^ length : ℕ) * tenPow (point - length) := by
  rw [← tenPow_natCast, ← tenPow_add, add_sub_cancel]

theorem tenPow_pred_eq_grid (point : ℤ) (hlength : 0 < length) :
    tenPow (point - 1) = (10 ^ (length - 1) : ℕ) * tenPow (point - length) := by
  rw [← tenPow_natCast, ← tenPow_add]
  congr 1
  omega

/-- The neighbours of a number on a grid have as many digits as the grid, or are the next power of
ten. -/
theorem neighbour_bounds (hq : 0 < q) (hlength : 0 < length)
    (hn : n = below q (pointOf q) length ∨ n = below q (pointOf q) length + 1) :
    10 ^ (length - 1) ≤ n ∧ n ≤ 10 ^ length := by
  have hunit := tenPow_pos (pointOf q - length)
  obtain ⟨hlow, hhigh⟩ := below_bounds hq.le (pointOf q) length
  obtain ⟨hleast, hmost⟩ := pointOf_bounds hq
  rw [tenPow_pred_eq_grid _ hlength] at hleast
  rw [tenPow_eq_grid _ length] at hmost
  have habove : 10 ^ (length - 1) < below q (pointOf q) length + 1 :=
    Nat.cast_lt.1 (lt_of_mul_lt_mul_right (hleast.trans_lt hhigh) hunit.le)
  have hbelow : below q (pointOf q) length < 10 ^ length :=
    Nat.cast_lt.1 (lt_of_mul_lt_mul_right (hlow.trans_lt hmost) hunit.le)
  omega

/-- Seventeen digits are enough to tell a double. -/
theorem contains_seventeen (h : Canonical m e) (hm : 0 < m) (hq : q = m * twoPow e) :
    (roundingInterval m e).contains
      ((roundHalfEven (q / tenPow (pointOf q - 17))).toNat * tenPow (pointOf q - 17)) = true := by
  have hpos : 0 < q := hq ▸ mul_pos (Nat.cast_pos.2 hm) (twoPow_pos e)
  have hunit := tenPow_pos (pointOf q - 17)
  have hleast := (pointOf_bounds hpos).1
  rw [tenPow_pred_eq_grid _ (by norm_num : 0 < 17)] at hleast
  have hnear := Double.abs_roundHalfEven_sub (q / tenPow (pointOf q - 17))
  have hnonneg := Double.roundHalfEven_nonneg (div_nonneg hpos.le hunit.le)
  have hcast : ((roundHalfEven (q / tenPow (pointOf q - 17))).toNat : ℚ) =
      roundHalfEven (q / tenPow (pointOf q - 17)) := by
    rw [← Int.cast_natCast, Int.toNat_of_nonneg hnonneg]
  refine contains_of_near h ?_
  rw [← hq, hcast]
  generalize (roundHalfEven (q / tenPow (pointOf q - 17)) : ℚ) = n at hnear
  have hdistance : n * tenPow (pointOf q - 17) - q =
      (n - q / tenPow (pointOf q - 17)) * tenPow (pointOf q - 17) := by
    rw [sub_mul, div_mul_cancel₀ _ hunit.ne']
  rw [hdistance, abs_mul, abs_of_pos hunit]
  calc |n - q / tenPow (pointOf q - 17)| * tenPow (pointOf q - 17)
      ≤ 1 / 2 * tenPow (pointOf q - 17) := mul_le_mul_of_nonneg_right hnear hunit.le
    _ < (10 ^ (17 - 1) : ℕ) * tenPow (pointOf q - 17) / 2 ^ 54 := by
        rw [mul_div_right_comm]
        exact mul_lt_mul_of_pos_right (by norm_num) hunit
    _ ≤ q / 2 ^ 54 := by
        have hpow : (0 : ℚ) < 2 ^ 54 := by norm_num
        exact (div_le_div_iff_of_pos_right hpow).2 hleast

/-- A decimal in an interval around a number shows that the grid of its length has a point there. -/
theorem ofLength?_ne_none_of_value {d : DecimalForm} (hq : 0 < q) (hself : i.contains q = true)
    (hd : 0 < d.digits) (hinside : i.contains d.value = true) :
    ofLength? q i (pointOf q) (digitCount d.digits) ≠ none := by
  have hcount := digitCount_pos d.digits
  obtain ⟨hlow, hhigh⟩ := pointOf_bounds hq
  obtain ⟨hdlow, hdhigh⟩ := value_bounds hd
  obtain hless | heq | hmore := lt_trichotomy d.point (pointOf q)
  · -- The power of ten above the decimal lies between the two.
    refine ofLength?_ne_none (n := 10 ^ (digitCount d.digits - 1)) hq.le hself ?_
    rw [← tenPow_pred_eq_grid _ hcount]
    exact Interval.contains_between hinside hself (hdhigh.le.trans (tenPow_le.2 (by omega))) hlow
  · refine ofLength?_ne_none (n := d.digits) hq.le hself ?_
    rw [← heq]
    exact hinside
  · refine ofLength?_ne_none (n := 10 ^ digitCount d.digits) hq.le hself ?_
    rw [← tenPow_eq_grid]
    exact Interval.contains_between hself hinside hhigh.le ((tenPow_le.2 (by omega)).trans hdlow)

/-- The decimal that a double is written with is a shortest one of its rounding interval. It has at
most seventeen digits, and its point is not left of that of the double. -/
theorem shortest_spec (h : Canonical m e) (hm : 0 < m) :
    IsShortest (roundingInterval m e) (shortest m e) ∧ digitCount (shortest m e).digits ≤ 17 ∧
      pointOf (m * twoPow e) ≤ (shortest m e).point := by
  have hpos : (0 : ℚ) < m * twoPow e := mul_pos (Nat.cast_pos.2 hm) (twoPow_pos e)
  have hself := contains_self m e
  obtain ⟨length, n, hsearch, hfound⟩ :=
    search_found hpos.le (roundingInterval m e) (pointOf (m * twoPow e)) 16 1
  have hlength : 0 < length := hfound.first_le
  have hmost : length ≤ 17 := hfound.le_last
  obtain ⟨hlow, hhigh⟩ := neighbour_bounds hpos hlength hfound.neighbour
  have hinside : (roundingInterval m e).contains
      (n * tenPow (pointOf (m * twoPow e) - length)) = true := by
    obtain hinside | ⟨rfl, rfl⟩ := hfound.inside
    · exact hinside
    · exact contains_seventeen h hm rfl
  obtain ⟨hdigits, hlast, hvalue, hcount, hpoint⟩ :=
    normalize_spec (pointOf (m * twoPow e)) hlength (by omega) hlow hhigh
  have heq : shortest m e = normalize length ⟨n, pointOf (m * twoPow e)⟩ := hsearch
  rw [← heq] at hdigits hlast hvalue hcount hpoint
  refine ⟨⟨hdigits, hlast, hvalue ▸ hinside, fun other hother hvalue => ?_⟩, by omega, hpoint⟩
  by_contra hless
  exact ofLength?_ne_none_of_value hpos hself hother hvalue
    (hfound.least _ (digitCount_pos _) (by omega))

end Shortest

end SceneTemplates.DecimalForm
