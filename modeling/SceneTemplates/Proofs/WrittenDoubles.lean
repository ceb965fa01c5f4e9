import SceneTemplates.Proofs.EqualNumbers
import SceneTemplates.Proofs.ShortestDecimals
import SceneTemplates.Value.Basic

/-!
# Written doubles

How ECMAScript lays a number out, said apart from the layouts of the program: the digits of a
shortest decimal with a plain point while that stands between the sixth place behind the digits and
the twenty-first before them, else one digit before the point and a signed exponent without leading
zeros. What the program writes is the same but for magnitudes between `1e-9` and `1e-4`, where the
point is given up too early and the exponent is filled with a zero.
-/
namespace SceneTemplates

open NumberLayout (zeros plain)

/-! ## The standard layout -/

namespace DecimalForm

variable {d : DecimalForm}

/-- One digit before the point and an exponent behind a mark. -/
def exponential (mark : Text) (d : DecimalForm) : Text :=
  let digits := Text.ofNat d.digits
  (if digits.length = 1 then digits else digits.take 1 ++ "." ++ digits.drop 1) ++ mark ++
    Text.ofNat (d.point - 1).natAbs

/-- The text of a positive decimal. -/
def standardText (d : DecimalForm) : Text :=
  let digits := Text.ofNat d.digits
  if digits.length ≤ d.point ∧ d.point ≤ 21 then
    digits ++ zeros (d.point - digits.length).toNat
  else if 0 < d.point ∧ d.point ≤ 21 then
    digits.take d.point.toNat ++ "." ++ digits.drop d.point.toNat
  else if -6 < d.point ∧ d.point ≤ 0 then "0." ++ zeros (-d.point).toNat ++ digits
  else d.exponential (if 0 < d.point then "e+" else "e-")

/-- The decimals that are written in another way. -/
def IsPadded (d : DecimalForm) : Prop := -9 < d.point ∧ d.point ≤ -4

@[simp] theorem length_ofNat (n : ℕ) : (Text.ofNat n).length = digitCount n := List.length_map _

@[simp] theorem length_zeros (n : ℕ) : (zeros n).length = n := List.length_replicate

/-- The exponent of the plain layout is filled with zeros. -/
theorem scientific_eq (d : DecimalForm) :
    plain.scientific (Text.ofNat d.digits) d.point =
      d.exponential ((if 0 < d.point then Text.ofString "e+" else Text.ofString "e-") ++
        zeros (2 - digitCount (d.point - 1).natAbs)) := by
  have hsign : d.point - 1 < 0 ↔ ¬ 0 < d.point := by omega
  have hcount := digitCount_pos d.digits
  rw [← length_ofNat] at hcount
  obtain ⟨c, rest, hdigits⟩ := List.exists_cons_of_length_pos hcount
  unfold NumberLayout.scientific exponential
  simp only [hsign, ite_not, hdigits, length_ofNat, List.append_assoc]
  cases rest <;> rfl

theorem digitCount_lt_ten {n : ℕ} (h : n < 10) : digitCount n = 1 := by
  have hmost := (digitCount_le_iff (n := n) (k := 1) (by norm_num)).2 (by omega)
  have hpos := digitCount_pos n
  omega

theorem digitCount_ten_le {n : ℕ} (h : 10 ≤ n) : 2 ≤ digitCount n := by
  have hmost := (digitCount_le_iff (n := n) (k := 1) (by norm_num)).not.2 (by omega)
  omega

theorem standardText_exponential (h : d.point ≤ -6 ∨ 22 ≤ d.point) :
    d.standardText =
      d.exponential (if 0 < d.point then Text.ofString "e+" else Text.ofString "e-") := by
  have hcount := digitCount_pos d.digits
  have hzeros : ¬ (digitCount d.digits ≤ d.point ∧ d.point ≤ 21) := by omega
  have hinside : ¬ (0 < d.point ∧ d.point ≤ 21) := by omega
  have hbefore : ¬ (-6 < d.point ∧ d.point ≤ 0) := by omega
  simp only [standardText, length_ofNat, if_neg hzeros, if_neg hinside, if_neg hbefore]

theorem standardText_before (hlow : -6 < d.point) (hhigh : d.point ≤ 0) :
    d.standardText = "0." ++ zeros (-d.point).toNat ++ Text.ofNat d.digits := by
  have hcount := digitCount_pos d.digits
  have hzeros : ¬ (digitCount d.digits ≤ d.point ∧ d.point ≤ 21) := by omega
  have hinside : ¬ (0 < d.point ∧ d.point ≤ 21) := by omega
  simp only [standardText, length_ofNat, if_neg hzeros, if_neg hinside,
    if_pos (And.intro hlow hhigh)]

theorem standardText_inside (hlow : 0 < d.point) (hhigh : d.point ≤ 21)
    (hfraction : d.point < digitCount d.digits) :
    d.standardText = (Text.ofNat d.digits).take d.point.toNat ++ "." ++
      (Text.ofNat d.digits).drop d.point.toNat := by
  have hzeros : ¬ (digitCount d.digits ≤ d.point ∧ d.point ≤ 21) := by omega
  simp only [standardText, length_ofNat, if_neg hzeros, if_pos (And.intro hlow hhigh)]

/-- Where the exponent has two digits nothing is filled. -/
theorem scientific_of_far (h : d.point ≤ -9 ∨ 22 ≤ d.point) :
    plain.scientific (Text.ofNat d.digits) d.point = d.standardText := by
  have hcount := digitCount_ten_le (n := (d.point - 1).natAbs) (by omega)
  have hzeros : zeros (2 - digitCount (d.point - 1).natAbs) = [] := by
    rw [Nat.sub_eq_zero_of_le hcount]
    rfl
  rw [scientific_eq, hzeros, List.append_nil, standardText_exponential (by omega)]

theorem scientific_of_isPadded (h : d.IsPadded) :
    plain.scientific (Text.ofNat d.digits) d.point = d.exponential "e-0" := by
  obtain ⟨hlow, hhigh⟩ := h
  rw [scientific_eq, digitCount_lt_ten (by omega), if_neg (by omega)]
  rfl

theorem positional_of_near (hlow : -4 < d.point) (hhigh : d.point ≤ 21)
    (hfraction : d.point < digitCount d.digits) :
    plain.positional (Text.ofNat d.digits) d.point = d.standardText := by
  unfold NumberLayout.positional
  by_cases hpoint : d.point ≤ 0
  · rw [if_pos hpoint, standardText_before (by omega) hpoint]
  · rw [if_neg hpoint, length_ofNat, if_neg (by omega),
      standardText_inside (by omega) hhigh hfraction]

theorem length_exponential (mark : Text) (d : DecimalForm) :
    (d.exponential mark).length =
      (if digitCount d.digits = 1 then 1 else digitCount d.digits + 1) + mark.length +
        digitCount (d.point - 1).natAbs := by
  have hcount := digitCount_pos d.digits
  rw [← length_ofNat] at hcount
  obtain ⟨c, rest, hdigits⟩ := List.exists_cons_of_length_pos hcount
  have hpoint : (Text.ofString ".").length = 1 := rfl
  unfold exponential
  rw [← length_ofNat, ← length_ofNat, hdigits]
  cases rest with
  | nil =>
    simp
    omega
  | cons c' rest =>
    simp [hpoint]
    omega

/-- A filled exponent is longer than one that is not, and shorter than the zeros behind a point. -/
theorem exponential_ne_standardText (h : d.IsPadded) : d.exponential "e-0" ≠ d.standardText := by
  obtain ⟨hlow, hhigh⟩ := h
  have hcount := digitCount_pos d.digits
  have hmark : (Text.ofString "e-0").length = 3 ∧ (Text.ofString "e-").length = 2 := ⟨rfl, rfl⟩
  have hpadded := length_exponential "e-0" d
  rw [digitCount_lt_ten (n := (d.point - 1).natAbs) (by omega), hmark.1] at hpadded
  intro heq
  rw [heq] at hpadded
  by_cases hfar : d.point ≤ -6
  · rw [standardText_exponential (.inl hfar), if_neg (by omega), length_exponential,
      digitCount_lt_ten (n := (d.point - 1).natAbs) (by omega), hmark.2] at hpadded
    omega
  · have hstart : (Text.ofString "0.").length = 2 := rfl
    rw [standardText_before (by omega) (by omega), List.length_append, List.length_append,
      length_zeros, length_ofNat, hstart] at hpadded
    split_ifs at hpadded <;> omega

theorem writeDecimal_of_isPadded (h : d.IsPadded) :
    plain.writeDecimal d = d.exponential "e-0" := by
  have hscientific : ¬ (plain.pointAbove < d.point ∧ d.point ≤ plain.pointUpTo) :=
    fun hpositional => not_lt.2 h.2 hpositional.1
  rw [NumberLayout.writeDecimal, if_neg hscientific, scientific_of_isPadded h]

theorem writeDecimal_of_not_isPadded (h : ¬ d.IsPadded)
    (hpoint : (d.point < digitCount d.digits ∧ d.point ≤ 16) ∨ 22 ≤ d.point) :
    plain.writeDecimal d = d.standardText := by
  have hplace : plain.pointAbove = -4 ∧ plain.pointUpTo = 16 := ⟨rfl, rfl⟩
  unfold IsPadded at h
  rw [NumberLayout.writeDecimal, hplace.1, hplace.2]
  split_ifs with hpositional
  · exact positional_of_near hpositional.1 (by omega) (by omega)
  · exact scientific_of_far (by omega)

/-! ## Where the point of a double stands -/

section Point

open Double (Canonical twoPow twoPow_pos)

variable {m : ℕ} {e : ℤ}

/-- Rounding keeps the order of a double and a number. -/
theorem le_of_contains {q : ℚ} {m' : ℕ} {e' : ℤ} (h : Canonical m e)
    (hcontains : (roundingInterval m e).contains q = true) (h' : Canonical m' e') (hm' : 0 < m')
    (hle : (m' : ℚ) * twoPow e' ≤ q) : (m' : ℚ) * twoPow e' ≤ m * twoPow e := by
  by_contra hless
  have hpos : (0 : ℚ) < m' * twoPow e' := mul_pos (Nat.cast_pos.2 hm') (twoPow_pos e')
  have hbetween :=
    Interval.contains_between (contains_self m e) hcontains (not_le.1 hless).le hle
  have hrounded := (ofMagnitude_eq_finite_iff false hpos h).2 hbetween
  rw [Double.ofMagnitude_self false h'] at hrounded
  injection hrounded with _ hm he
  exact hless (by rw [hm, he])

/-- A double in whose interval an integer is, is itself an integer. -/
theorem exists_natCast_of_contains {n : ℕ} (h : Canonical m e) (hn : 0 < n)
    (hcontains : (roundingInterval m e).contains n = true) :
    ∃ k : ℕ, (m : ℚ) * twoPow e = k := by
  have hpos : (0 : ℚ) < n := Nat.cast_pos.2 hn
  have hrounded := (ofMagnitude_eq_finite_iff false hpos h).2 hcontains
  obtain ⟨v, hv, hrounds⟩ | ⟨hinfinite, -⟩ := Double.ofMagnitude_rounds false hpos.le
  · obtain ⟨i, rfl⟩ := hrounds.integral n (Int.cast_natCast n).symm
    rw [hrounded] at hv
    have hself : (m : ℚ) * twoPow e = i := Option.some.inj hv
    have hsize : (0 : ℚ) ≤ m * twoPow e := mul_nonneg (Nat.cast_nonneg m) (twoPow_pos e).le
    have hnonneg : 0 ≤ i := by
      rw [hself] at hsize
      exact_mod_cast hsize
    exact ⟨i.toNat, by rw [hself, ← Int.cast_natCast, Int.toNat_of_nonneg hnonneg]⟩
  · rw [hrounded] at hinfinite
    cases hinfinite

/-- The shortest decimal of a double that is no integer has a fraction, and the point of a large one
is far behind. -/
theorem point_shortest (h : Canonical m e) (hm : 0 < m)
    (hlarge : ∀ n : ℕ, m * twoPow e = n → 10 ^ 21 ≤ n) :
    ((shortest m e).point < digitCount (shortest m e).digits ∧ (shortest m e).point ≤ 16) ∨
      22 ≤ (shortest m e).point := by
  obtain ⟨hshortest, hcount, hpoint⟩ := shortest_spec h hm
  have hpos : (0 : ℚ) < m * twoPow e := mul_pos (Nat.cast_pos.2 hm) (twoPow_pos e)
  by_cases hintegral : ∃ n : ℕ, m * twoPow e = n
  · obtain ⟨n, hn⟩ := hintegral
    right
    have hhigh := (pointOf_bounds hpos).2
    have hlow : tenPow 21 ≤ m * twoPow e := by
      rw [hn, show (21 : ℤ) = (21 : ℕ) from rfl, tenPow_natCast]
      exact Nat.cast_le.2 (hlarge n hn)
    have hless := tenPow_lt.1 (hlow.trans_lt hhigh)
    omega
  · left
    by_contra hwhole
    have hplaces : (digitCount (shortest m e).digits : ℤ) ≤ (shortest m e).point := by omega
    obtain ⟨zeros, hzeros⟩ := Int.eq_ofNat_of_zero_le (sub_nonneg.2 hplaces)
    have hvalue : (shortest m e).value = ((shortest m e).digits * 10 ^ zeros : ℕ) := by
      rw [value, hzeros, tenPow_natCast, Nat.cast_mul]
    have hnatural := Nat.mul_pos hshortest.pos (Nat.pow_pos (n := zeros) (by norm_num : 0 < 10))
    exact hintegral (exists_natCast_of_contains h hnatural (hvalue ▸ hshortest.inside))

end Point

end DecimalForm

/-! ## Texts of doubles -/

namespace Double

variable {x : Double} {q : ℚ}

/-- A number that is no less than a double is not rounded below it. -/
theorem le_abs_ofRat {v : ℚ} {m : ℕ} {e : ℤ} (h : Canonical m e) (hm : 0 < m)
    (hle : (m : ℚ) * twoPow e ≤ |q|) (hv : (ofRat q).toRat? = some v) :
    (m : ℚ) * twoPow e ≤ |v| := by
  have hpos : (0 : ℚ) < m * twoPow e := mul_pos (Nat.cast_pos.2 hm) (twoPow_pos e)
  rw [ofRat_eq] at hv
  cases hx : ofMagnitude (decide (q < 0)) |q| with
  | nan | infinity =>
    rw [hx] at hv
    cases hv
  | finite negative m' e' h' =>
    have hsign : negative = decide (q < 0) := by
      have hnegative := congrArg isNegative hx
      rw [isNegative_ofMagnitude] at hnegative
      exact hnegative.symm
    subst hsign
    have hcontains := (DecimalForm.ofMagnitude_eq_finite_iff _ (hpos.trans_le hle) h').1 hx
    have hsize : (0 : ℚ) ≤ m' * twoPow e' := mul_nonneg (Nat.cast_nonneg m') (twoPow_pos e').le
    have habs : |v| = m' * twoPow e' := by
      rw [hx] at hv
      rw [← Option.some.inj hv]
      split_ifs
      · rw [abs_neg, abs_of_nonneg hsize]
      · rw [abs_of_nonneg hsize]
    rw [habs]
    exact DecimalForm.le_of_contains h' hcontains h hm hle

/-- The text of a double, for a layout of its shortest decimal. -/
def laidOut (layout : DecimalForm → Text) : Double → Text
  | .nan _ _ => "NaN"
  | .infinity negative => (if negative then Text.ofString "-" else []) ++ Text.ofString "Infinity"
  | .finite negative m e _ =>
    if m = 0 then "0"
    else (if negative then Text.ofString "-" else []) ++ layout (.shortest m e)

/-- The text of a double as ECMAScript defines it. -/
def standardText : Double → Text := laidOut DecimalForm.standardText

/-- The doubles that are written in another way. -/
def IsPadded : Double → Prop
  | .finite _ m e _ => 0 < m ∧ (DecimalForm.shortest m e).IsPadded
  | _ => False

/-- A double that is no integer below `10 ^ 21` is written as in the standard, unless its exponent is
filled. -/
theorem write_plain (hq : x.toRat? = some q) (hlarge : ∀ i : ℤ, q = i → 10 ^ 21 ≤ |i|) :
    (plain.write x = x.standardText ↔ ¬ x.IsPadded) ∧
      (x.IsPadded → plain.write x = x.laidOut (DecimalForm.exponential "e-0")) := by
  cases x with
  | nan | infinity => cases hq
  | finite negative m e h =>
    have hvalue := Option.some.inj hq
    have hm : 0 < m := by
      by_contra hzero
      have hq : q = (0 : ℤ) := by
        rw [← hvalue, Nat.eq_zero_of_not_pos hzero]
        simp
      exact absurd (hlarge 0 hq) (by norm_num)
    have hnatural : ∀ n : ℕ, m * twoPow e = n → 10 ^ 21 ≤ n := by
      intro n hn
      rw [hn] at hvalue
      cases negative with
      | false =>
        have hle := hlarge n (by rw [← hvalue]; simp)
        rw [Nat.abs_cast] at hle
        exact_mod_cast hle
      | true =>
        have hle := hlarge (-n) (by rw [← hvalue]; simp)
        rw [abs_neg, Nat.abs_cast] at hle
        exact_mod_cast hle
    have hpoint := DecimalForm.point_shortest h hm hnatural
    have hwrite : plain.write (.finite negative m e h) =
        (if negative then Text.ofString "-" else []) ++ plain.writeDecimal (.shortest m e) := by
      simp only [NumberLayout.write, if_neg hm.ne']
    have hlaid : ∀ layout, (finite negative m e h).laidOut layout =
        (if negative then Text.ofString "-" else []) ++ layout (.shortest m e) := fun layout => by
      simp only [laidOut, if_neg hm.ne']
    rw [standardText, hwrite, hlaid, hlaid, List.append_cancel_left_eq, List.append_cancel_left_eq]
    have hpadded : (finite negative m e h).IsPadded ↔ (DecimalForm.shortest m e).IsPadded :=
      and_iff_right hm
    rw [hpadded]
    refine ⟨⟨fun heq h => ?_, fun h => ?_⟩, DecimalForm.writeDecimal_of_isPadded⟩
    · rw [DecimalForm.writeDecimal_of_isPadded h] at heq
      exact DecimalForm.exponential_ne_standardText h heq
    · exact DecimalForm.writeDecimal_of_not_isPadded h hpoint

end Double

namespace Number

variable {n : Number} {i : ℤ} {x : Double} {q : ℚ}

theorem equals_int_iff (hq : n.toExtended? = some (.rational q)) :
    n.equals (int i) = true ↔ q = i := by
  have hplace : (int i).toExtended? = some (.rational i) := rfl
  simp [equals, hq, hplace]

@[simp] theorem int_equals_int_iff {j : ℤ} : (int i).equals (int j) = true ↔ i = j := by
  rw [equals_int_iff (q := i) rfl, Int.cast_inj]

/-- `10 ^ 21` is a double. -/
theorem exists_tenPow : ∃ m e, Double.Canonical m e ∧ 0 < m ∧
    (m : ℚ) * Double.twoPow e = 10 ^ 21 := by
  refine ⟨7629394531250000, 17, by decide, by norm_num, ?_⟩
  norm_num [Double.twoPow]

/-- An integer of at least `10 ^ 21` that is no infinity is written as its double, which is no
smaller. -/
theorem numberText_large (hrange : (int i).IsInRange) (hlarge : 10 ^ 21 ≤ |i|) :
    ∃ x, Double.ofInt? i = some x ∧ Value.numberText (int i) = plain.write x ∧
      ∃ j : ℤ, x.toRat? = some (j : ℚ) ∧ 10 ^ 21 ≤ |j| := by
  obtain ⟨x, hx, -⟩ := Double.exists_ofInt? (isInRange_int_iff.1 hrange)
  obtain ⟨j, hj, -⟩ := Double.ofInt?_rounds hx
  refine ⟨x, hx, ?_, j, hj, ?_⟩
  · have hsize : ¬ i.natAbs < Nat.pow 10 21 := by
      rw [Int.abs_eq_natAbs] at hlarge
      exact not_lt.2 (by exact_mod_cast hlarge)
    simp only [Value.numberText, hrange.collapse_eq, if_neg hsize, hx]
  · have hrat : Double.ofRat i = x := by
      unfold Double.ofInt? at hx
      split at hx
      · cases hx
      · exact Option.some.inj hx
    obtain ⟨m, e, hcanonical, hm, hvalue⟩ := exists_tenPow
    have hcast : (10 : ℚ) ^ 21 ≤ |(i : ℚ)| := by exact_mod_cast hlarge
    have hleast := Double.le_abs_ofRat hcanonical hm (hvalue.trans_le hcast) (hrat ▸ hj)
    rw [hvalue] at hleast
    exact_mod_cast hleast

theorem numberText_small (hsmall : |i| < 10 ^ 21) : Value.numberText (int i) = Text.ofInt i := by
  have hrange : (int i).IsInRange := by
    have hless : 10 ^ 21 ≤ Double.maxFinite := by decide +kernel
    exact .int (hsmall.le.trans hless)
  have hsize : i.natAbs < Nat.pow 10 21 := by
    rw [Int.abs_eq_natAbs] at hsmall
    exact_mod_cast hsmall
  simp only [Value.numberText, hrange.collapse_eq, if_pos hsize]

/-- A double is written as an integer if it is one and small. -/
theorem numberText_double (hq : x.toRat? = some q) :
    (∀ i : ℤ, q = i → |i| < 10 ^ 21 → Value.numberText (double x) = Text.ofInt i) ∧
      ((∀ i : ℤ, q = i → 10 ^ 21 ≤ |i|) → Value.numberText (double x) = plain.write x) := by
  have htext : Value.numberText (double x) =
      if q.den = 1 ∧ q.num.natAbs < Nat.pow 10 21 then Text.ofInt q.num else plain.write x := by
    cases x with
    | nan | infinity => cases hq
    | finite => simp only [Value.numberText, collapse, hq]
  rw [htext]
  constructor
  · rintro i rfl hsmall
    rw [Int.abs_eq_natAbs] at hsmall
    have hsize : i.natAbs < Nat.pow 10 21 := by exact_mod_cast hsmall
    exact if_pos ⟨Rat.den_intCast i, hsize⟩
  · intro hlarge
    refine if_neg fun hsmall => ?_
    have hintegral : q = q.num := (Rat.den_eq_one_iff q).1 hsmall.1 |>.symm
    have hle := hlarge q.num hintegral
    rw [Int.abs_eq_natAbs] at hle
    have hsize : Nat.pow 10 21 ≤ q.num.natAbs := by exact_mod_cast hle
    exact not_lt.2 hsize hsmall.2

/-- What is no finite number is written by its name. -/
theorem numberText_of_not_isFinite (hx : x.isFinite = false) :
    Value.numberText (double x) = x.standardText ∧ ¬ x.IsPadded := by
  cases x with
  | nan => exact ⟨rfl, id⟩
  | infinity negative => cases negative <;> exact ⟨rfl, id⟩
  | finite => cases hx

/-- An integer beyond the finite doubles is written as the infinity. -/
theorem numberText_of_not_isInRange {negative : Bool}
    (h : (int i).collapse = double (.infinity negative)) :
    Value.numberText (int i) = Value.numberText (double (.infinity negative)) := by
  unfold Value.numberText
  rw [h]
  rfl

/-- What a number is written as. An integer below `10 ^ 21`, whether it is a double or not, is
written with its digits. Every other number is written as the standard writes the double that it is
converted to, exactly if the exponent is not filled; else it has one more zero there. -/
theorem toText_standard (n : Number) :
    (∀ i : ℤ, n.equals (int i) = true → |i| < 10 ^ 21 →
      Value.toText (.number n) = Text.ofInt i) ∧
    ((∀ i : ℤ, n.equals (int i) = true → 10 ^ 21 ≤ |i|) →
      ∃ x, n.collapse.toDouble = .ok x ∧
        (Value.toText (.number n) = x.standardText ↔ ¬ x.IsPadded) ∧
        (x.IsPadded → Value.toText (.number n) = x.laidOut (DecimalForm.exponential "e-0"))) := by
  have htext : Value.toText (.number n) = Value.numberText n := rfl
  rw [htext]
  cases n with
  | int i =>
    refine ⟨fun j hj hsmall => ?_, fun hlarge => ?_⟩
    · rw [← int_equals_int_iff.1 hj] at hsmall ⊢
      exact numberText_small hsmall
    · by_cases hrange : (int i).IsInRange
      · obtain ⟨x, hx, hwritten, j, hj, hsize⟩ :=
          numberText_large hrange (hlarge i (int_equals_int_iff.2 rfl))
        have hwrite := Double.write_plain hj fun k hk => by
          rwa [← Int.cast_inj.1 hk]
        rw [hwritten, hrange.collapse_eq]
        exact ⟨x, by simp only [toDouble, hx], hwrite⟩
      · obtain ⟨negative, hcollapse⟩ := collapse_of_not_isInRange hrange
        have hnamed := numberText_of_not_isFinite (x := .infinity negative) rfl
        rw [hcollapse, numberText_of_not_isInRange hcollapse]
        exact ⟨_, rfl, iff_of_true hnamed.1 hnamed.2, fun h => absurd h hnamed.2⟩
  | double x =>
    cases hq : x.toRat? with
    | some q =>
      have hequals : ∀ i : ℤ, (double x).equals (int i) = true ↔ q = i := fun i =>
        equals_int_iff (Double.toExtended?_eq_rational.2 hq)
      simp only [hequals]
      obtain ⟨hsmall, hlarge⟩ := numberText_double hq
      refine ⟨hsmall, fun h => ⟨x, rfl, ?_⟩⟩
      rw [hlarge h]
      exact Double.write_plain hq h
    | none =>
      have hx : x.isFinite = false := by
        cases x with
        | nan | infinity => rfl
        | finite => cases hq
      have hnamed := numberText_of_not_isFinite hx
      refine ⟨fun i hi => ?_, fun _ => ⟨x, rfl, iff_of_true hnamed.1 hnamed.2,
        fun h => absurd h hnamed.2⟩⟩
      obtain ⟨p, hp, hi⟩ := equals_iff.1 hi
      rw [← Option.some.inj hi] at hp
      have hrational := Double.toExtended?_eq_rational.1 hp
      rw [hq] at hrational
      cases hrational

/-- The first integer that is written with an exponent. -/
theorem toText_standard_first : Value.toText (.number (int (Nat.pow 10 21 : ℕ))) = "1e+21" := by
  obtain ⟨x, hx, hstandard, -⟩ := (toText_standard (int (Nat.pow 10 21 : ℕ))).2 fun i hi => by
    rw [← int_equals_int_iff.1 hi, Nat.abs_cast]
    exact le_refl _
  have hdouble : x = .finite false 7629394531250000 17 (by decide) := by
    have hconverted : (int (Nat.pow 10 21 : ℕ)).collapse.toDouble =
        .ok (.finite false 7629394531250000 17 (by decide)) := by decide +kernel
    exact Except.ok.inj (hx.symm.trans hconverted)
  have hpadded : ¬ x.IsPadded := by
    rw [hdouble]
    exact fun h => absurd h.2.2 (by decide +kernel)
  rw [hstandard.2 hpadded, hdouble]
  decide +kernel

/-- The hundred thousandth part is no integer, and neither its point nor its exponent is that of the
standard. -/
theorem toText_not_standard :
    (Double.ofRat (1 / 100000)).isIntegral = false ∧
      (Double.ofRat (1 / 100000)).standardText = "0.00001" ∧
      Value.toText (.number (double (Double.ofRat (1 / 100000)))) = "1e-05" := by
  decide +kernel

end Number

end SceneTemplates
