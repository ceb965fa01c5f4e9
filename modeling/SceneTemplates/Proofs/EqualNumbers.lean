import SceneTemplates.Proofs.CalculatedValues

/-!
# Equal numbers

Equality of numbers compares the places on the line as they are. The relations of order and the
operators of arithmetic move an integer beyond the finite doubles to the end of the line first. So
two numbers that are ordered both ways are equal, unless one of them is an integer beyond the range
and both come to the same infinity; and what stands for a number after zero is taken away from it
is equal to what the relations of order compare.
-/
namespace SceneTemplates

/-! ## Places on the line -/

namespace ExtendedRat

/-- The place at which a number is compared: places beyond the finite doubles are moved to the ends
of the line. -/
def clamp : ExtendedRat → ExtendedRat
  | .rational q =>
    if (Double.maxFinite : ℚ) < q then .top
    else if q < -(Double.maxFinite : ℚ) then .bottom
    else .rational q
  | p => p

@[simp] theorem clamp_rational {q : ℚ} (h : |q| ≤ Double.maxFinite) :
    (rational q).clamp = rational q := by
  obtain ⟨hlow, hhigh⟩ := abs_le.1 h
  rw [clamp, if_neg (not_lt.2 hhigh), if_neg (not_lt.2 hlow)]

theorem less_asymm {p r : ExtendedRat} (h : p.less r = true) : r.less p = false := by
  cases p <;> cases r <;> simp_all [less, le_of_lt]

end ExtendedRat

namespace Double

/-- A double is no farther out than the largest finite one, or is at an end of the line. -/
@[simp] theorem clamp_toExtended? (x : Double) :
    x.toExtended?.map ExtendedRat.clamp = x.toExtended? := by
  cases hx : x.toExtended? with
  | none => rfl
  | some p =>
    cases p with
    | bottom | top => rfl
    | rational q =>
      have hsize := abs_le_maxFinite (toExtended?_eq_rational.1 hx)
      simp only [Option.map_some, ExtendedRat.clamp_rational hsize]

/-- A finite double less zero is that double, and so is an infinity. What is no number stays none. -/
@[simp]
theorem toExtended?_sub_zero (x : Double) : (x.sub (zero false)).toExtended? = x.toExtended? := by
  have hzero : (zero true).toRat? = some 0 := by simp [zero, toRat?]
  cases x with
  | nan | infinity => rfl
  | finite negative m e h =>
    obtain ⟨q, hq⟩ : ∃ q, (finite negative m e h).toRat? = some q := ⟨_, rfl⟩
    have hsub : (finite negative m e h).sub (zero false) =
        if q = 0 then zero (negative && true) else ofRat q := by
      change (finite negative m e h).add (zero true) = _
      simp only [add, hq, hzero, add_zero]
      rfl
    have hplace := toExtended?_eq_rational.2 hq
    rw [hsub, hplace]
    split_ifs with hnone
    · refine toExtended?_eq_rational.2 ?_
      simp [zero, toRat?, hnone]
    · rw [ofRat_self hq hnone, hplace]

end Double

namespace Number

variable {a b n : Number}

theorem equals_iff : a.equals b = true ↔
    ∃ p, a.toExtended? = some p ∧ b.toExtended? = some p := by
  unfold equals
  cases a.toExtended? with
  | none => simp
  | some p => cases b.toExtended? <;> simp [eq_comm]

/-- Numbers that are ordered both ways are at one place. -/
theorem equals_iff_atMost : a.equals b = true ↔ a.atMost b = true ∧ b.atMost a = true := by
  unfold atMost less equals
  cases a.toExtended? with
  | none => simp
  | some p =>
    cases b.toExtended? with
    | none => simp
    | some r =>
      have hasymm := @ExtendedRat.less_asymm p r
      by_cases heq : p = r
      · simp [heq]
      · cases hless : p.less r <;> simp_all [Ne.symm heq]

/-- Collapsing a number clamps its place. -/
@[simp] theorem toExtended?_collapse (n : Number) :
    n.collapse.toExtended? = n.toExtended?.map ExtendedRat.clamp := by
  cases n with
  | double x => exact (Double.clamp_toExtended? x).symm
  | int n =>
    have hcast : ∀ m k : ℤ, (m : ℚ) < k ↔ m < k := fun m k => Int.cast_lt
    have hplace : (int n).toExtended? = some (.rational n) := rfl
    simp only [hplace, Option.map_some, ExtendedRat.clamp, ← Int.cast_neg, hcast]
    rw [collapse_int]
    by_cases habove : Double.maxFinite < n
    · simp only [if_pos habove]
      rfl
    · by_cases hbelow : n < -Double.maxFinite
      · simp only [if_neg habove, if_pos hbelow]
        rfl
      · simp only [if_neg habove, if_neg hbelow]
        rfl

theorem equals_collapse (h : a.equals b = true) : a.collapse.equals b.collapse = true := by
  obtain ⟨p, ha, hb⟩ := equals_iff.1 h
  refine equals_iff.2 ⟨p.clamp, ?_, ?_⟩
  · simp [ha]
  · simp [hb]

/-- Only an infinity is at an end of the line. -/
theorem eq_infinity_of_toExtended? {negative : Bool}
    (h : n.toExtended? = (Double.infinity negative).toExtended?) :
    n = double (.infinity negative) := by
  rcases n with n | _ | ⟨_ | _⟩ | _ <;> cases negative <;> first | rfl | cases h

/-- Two numbers come to the same infinity although one of them is an integer beyond the range. -/
def MeetBeyond (a b : Number) : Prop :=
  ¬ (a.IsInRange ∧ b.IsInRange) ∧
    ∃ negative, a.collapse = double (.infinity negative) ∧ b.collapse = double (.infinity negative)

theorem collapse_equals_iff :
    a.collapse.equals b.collapse = true ↔ a.equals b = true ∨ MeetBeyond a b := by
  constructor
  · intro h
    by_cases hrange : a.IsInRange ∧ b.IsInRange
    · rw [hrange.1.collapse_eq, hrange.2.collapse_eq] at h
      exact .inl h
    · refine .inr ⟨hrange, ?_⟩
      obtain ⟨p, ha, hb⟩ := equals_iff.1 h
      have hplaces : a.collapse.toExtended? = b.collapse.toExtended? := ha.trans hb.symm
      by_cases harange : a.IsInRange
      · obtain ⟨negative, hbeyond⟩ := collapse_of_not_isInRange fun hb => hrange ⟨harange, hb⟩
        rw [hbeyond] at hplaces
        exact ⟨negative, eq_infinity_of_toExtended? hplaces, hbeyond⟩
      · obtain ⟨negative, hbeyond⟩ := collapse_of_not_isInRange harange
        rw [hbeyond] at hplaces
        exact ⟨negative, hbeyond, eq_infinity_of_toExtended? hplaces.symm⟩
  · rintro (h | ⟨-, negative, ha, hb⟩)
    · exact equals_collapse h
    · rw [ha, hb]
      cases negative <;> rfl

/-! ## Relations of numbers -/

/-- A relation that holds of two numbers. -/
def Holds (op : BinaryOperator) (a b : Number) : Prop :=
  Value.operate op (.number a) (.number b) = .ok (.bool true)

@[simp] theorem holds_equal : Holds .equal a b ↔ a.equals b = true := by
  have hvalue : Value.operate .equal (.number a) (.number b) = .ok (.bool (a.equals b)) := rfl
  simp [Holds, hvalue]

@[simp] theorem holds_strictEqual : Holds .strictEqual a b ↔ a.equals b = true := by
  have hvalue : Value.operate .strictEqual (.number a) (.number b) =
      .ok (.bool (a.equals b)) := rfl
  simp [Holds, hvalue]

@[simp] theorem holds_lessEqual : Holds .lessEqual a b ↔ a.collapse.atMost b.collapse = true := by
  have hvalue : Value.operate .lessEqual (.number a) (.number b) =
      .ok (.bool (a.collapse.atMost b.collapse)) := rfl
  simp [Holds, hvalue]

@[simp]
theorem holds_greaterEqual : Holds .greaterEqual a b ↔ b.collapse.atMost a.collapse = true := by
  have hvalue : Value.operate .greaterEqual (.number a) (.number b) =
      .ok (.bool (b.collapse.atMost a.collapse)) := rfl
  simp [Holds, hvalue]

/-- A number within the range less zero is at the same place. -/
theorem exists_sub_zero (h : n.IsInRange) :
    ∃ r, n.sub (int 0) = .ok r ∧ r.IsInRange ∧ r.toExtended? = n.toExtended? := by
  cases h with
  | double x =>
    have hvalue : (double x).sub (int 0) = .ok (double (x.sub (Double.zero false))) := rfl
    exact ⟨_, hvalue, .double _, Double.toExtended?_sub_zero x⟩
  | @int n size =>
    have hvalue : (int n).sub (int 0) = .ok (int n) := by
      change Except.ok (int (n - 0)) = _
      rw [Int.sub_zero]
    exact ⟨_, hvalue, .int size, rfl⟩

/-- A number less zero is where the relations of order see it. -/
theorem exists_minus_zero (n : Number) :
    ∃ r, Value.operate .minus (.number n) (.number (int 0)) = .ok (.number r) ∧
      r.toExtended? = n.collapse.toExtended? := by
  obtain ⟨r, hsub, hrange, hplace⟩ := exists_sub_zero n.isInRange_collapse
  have hzero : (int 0).collapse = int 0 := (isInRange_small (by decide)).collapse_eq
  have hvalue : Value.operate .minus (.number n) (.number (int 0)) =
      (Value.arithmetic sub (.number n) (.number (int 0))).map Value.collapse := rfl
  refine ⟨r, ?_, hplace⟩
  rw [hvalue, Value.map_collapse_arithmetic]
  simp only [Value.arithmetic, Value.toNumber, hzero, hsub, bind, Except.bind, Except.map,
    hrange.collapse_eq]

theorem equals_congr {a' b' : Number} (ha : a'.toExtended? = a.toExtended?)
    (hb : b'.toExtended? = b.toExtended?) : a'.equals b' = a.equals b := by
  unfold equals
  rw [ha, hb]

/-- Two numbers are ordered both ways exactly if they are equal or meet beyond the range, and
exactly if they are equal once zero is taken away from both. Equality with and without conversion
agree, and neither changes when zero is taken away from a number within the range. -/
theorem equal_iff_ordered (a b : Number) :
    (Holds .strictEqual a b ↔ Holds .equal a b) ∧
    (Holds .lessEqual a b ∧ Holds .greaterEqual a b ↔ Holds .equal a b ∨ MeetBeyond a b) ∧
    ∃ a' b', Value.operate .minus (.number a) (.number (int 0)) = .ok (.number a') ∧
      Value.operate .minus (.number b) (.number (int 0)) = .ok (.number b') ∧
      (Holds .lessEqual a b ∧ Holds .greaterEqual a b ↔ Holds .equal a' b') ∧
      (a.IsInRange → (Holds .equal a' b ↔ Holds .equal a b)) ∧
      (b.IsInRange → (Holds .equal a b' ↔ Holds .equal a b)) := by
  obtain ⟨a', ha', haplace⟩ := exists_minus_zero a
  obtain ⟨b', hb', hbplace⟩ := exists_minus_zero b
  have hordered : Holds .lessEqual a b ∧ Holds .greaterEqual a b ↔
      a.collapse.equals b.collapse = true := by
    simp [equals_iff_atMost]
  refine ⟨?_, ?_, a', b', ha', hb', ?_, ?_, ?_⟩
  · simp
  · rw [hordered, holds_equal, collapse_equals_iff]
  · rw [hordered, holds_equal, equals_congr haplace hbplace]
  · intro ha
    rw [ha.collapse_eq] at haplace
    simp [equals_congr haplace rfl]
  · intro hb
    rw [hb.collapse_eq] at hbplace
    simp [equals_congr rfl hbplace]

/-- Zero is taken away from an integer and from a zero with the minus sign. -/
theorem equal_iff_ordered_zeros :
    ∃ a' b', Value.operate .minus (.number (int 0)) (.number (int 0)) = .ok (.number a') ∧
      Value.operate .minus (.number (double (.zero true))) (.number (int 0)) = .ok (.number b') ∧
      (Holds .equal a' (double (.zero true)) ↔ Holds .equal (int 0) (double (.zero true))) ∧
      (Holds .equal (int 0) b' ↔ Holds .equal (int 0) (double (.zero true))) := by
  obtain ⟨-, -, a', b', ha', hb', -, ha, hb⟩ := equal_iff_ordered (int 0) (double (.zero true))
  exact ⟨a', b', ha', hb', ha (isInRange_small (by decide)), hb (.double _)⟩

/-- An integer beyond the range and the infinity are ordered both ways and are not equal. -/
theorem not_equal_of_ordered :
    ¬ (Holds .equal (int (Int.pow 10 400)) (double (.infinity false)) ↔
      Holds .lessEqual (int (Int.pow 10 400)) (double (.infinity false)) ∧
        Holds .greaterEqual (int (Int.pow 10 400)) (double (.infinity false))) := by
  rw [holds_equal, holds_lessEqual, holds_greaterEqual]
  decide +kernel

end Number

end SceneTemplates
