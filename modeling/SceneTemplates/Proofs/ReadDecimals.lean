import SceneTemplates.Proofs.DecimalIntegers
import SceneTemplates.Proofs.NumeralValues
import SceneTemplates.Proofs.WrittenDoubles

/-!
# Decimals that are read back

What a number is written as is read as that number. Every layout of a decimal writes a numeral with
the value of the decimal, and that is rounded to the double that the decimal was the shortest of.
-/
namespace SceneTemplates

open Numeral (WritesDigits WritesSign WritesFraction WritesExponent)
open NumberLayout (zeros plain)

/-! ## Numerals of a layout -/

namespace DecimalForm

variable {d : DecimalForm} {n : Numeral} {N : ℕ} {digits : List ℕ} {t : Text}

theorem writesDigits_zeros (k : ℕ) :
    WritesDigits Text.asciiDigit? (List.replicate k 0) (zeros k) := by
  induction k with
  | zero => exact .nil
  | succ k ih => exact .cons rfl ih

/-- The digits of a decimal with their count. -/
theorem exists_digits (N : ℕ) : ∃ digits, WritesInteger N digits (Text.ofNat N) ∧
    digits.length = digitCount N := by
  obtain ⟨digits, h⟩ := exists_writesInteger N
  exact ⟨digits, h, h.ascii.length_eq.trans (length_ofNat N)⟩

/-- The text writes a numeral with the value of the decimal that has a fraction or an exponent. -/
def IsReadAs (d : DecimalForm) (t : Text) : Prop :=
  ∃ n : Numeral, n.Writes Text.asciiDigit? t ∧ n.isInteger = false ∧ n.value = d.value

/-- A numeral with the digits of a decimal, and zeros behind them, has its value if the point is at
the same place. -/
theorem isReadAs_of_digits {t w f e : Text} {whole : List ℕ} {fraction : Option (List ℕ)}
    {exponent : Option ℤ} (ht : t = w ++ (f ++ e)) (hwhole : WritesDigits Text.asciiDigit? whole w)
    (hfraction : WritesFraction Text.asciiDigit? fraction f)
    (hexponent : WritesExponent Text.asciiDigit? exponent e) (hne : whole ≠ [])
    (hparts : (fraction.isNone && exponent.isNone) = false) (z : ℕ)
    (hdigits : Text.ofDigits 10 (whole ++ fraction.getD []) = d.digits * 10 ^ z)
    (hplace : exponent.getD 0 - (fraction.getD []).length + z = d.point - digitCount d.digits) :
    d.IsReadAs t := by
  subst ht
  refine ⟨⟨whole, fraction, exponent⟩, ⟨hwhole, hfraction, hexponent, .inl hne⟩, hparts, ?_⟩
  rw [Numeral.value, value, ← hplace, tenPow_add, tenPow_natCast, hdigits, Nat.cast_mul]
  ring

theorem before_isReadAs (hpoint : d.point ≤ 0) :
    d.IsReadAs ("0." ++ zeros (-d.point).toNat ++ Text.ofNat d.digits) := by
  obtain ⟨digits, h, hlength⟩ := exists_digits d.digits
  have hfraction : WritesDigits Text.asciiDigit? (List.replicate (-d.point).toNat 0 ++ digits)
      (zeros (-d.point).toNat ++ Text.ofNat d.digits) :=
    List.rel_append (writesDigits_zeros _) h.ascii
  have hwhole : WritesDigits Text.asciiDigit? [0] ['0'.toNat] := .cons rfl .nil
  refine isReadAs_of_digits ?_ hwhole (.present hfraction) .absent (List.cons_ne_nil _ _) rfl 0
    ?_ ?_
  · rw [List.append_nil, List.append_assoc]
    rfl
  · have hrow := Text.ofDigits_zeros_append 10 ((-d.point).toNat + 1) digits
    rw [h.value, List.replicate_succ, List.cons_append] at hrow
    rw [pow_zero, mul_one, ← hrow]
    rfl
  · simp only [Option.getD_none, Option.getD_some, List.length_append, List.length_replicate]
    omega

theorem behind_isReadAs (hpoint : digitCount d.digits ≤ d.point.toNat) :
    d.IsReadAs (Text.ofNat d.digits ++ zeros (d.point.toNat - digitCount d.digits) ++
      Text.ofString ".0") := by
  obtain ⟨digits, h, hlength⟩ := exists_digits d.digits
  have hcount := digitCount_pos d.digits
  have hwhole : WritesDigits Text.asciiDigit?
      (digits ++ List.replicate (d.point.toNat - digitCount d.digits) 0)
      (Text.ofNat d.digits ++ zeros (d.point.toNat - digitCount d.digits)) :=
    List.rel_append h.ascii (writesDigits_zeros _)
  have hfraction : WritesDigits Text.asciiDigit? [0] ['0'.toNat] := .cons rfl .nil
  refine isReadAs_of_digits rfl hwhole (.present hfraction) .absent (by simp [h.ne_nil]) rfl
    (d.point.toNat - digitCount d.digits + 1) ?_ ?_
  · have hrow := Text.ofDigits_append_zeros 10 digits
      (d.point.toNat - digitCount d.digits + 1)
    rw [h.value, List.replicate_succ', ← List.append_assoc] at hrow
    exact hrow
  · simp only [Option.getD_none, Option.getD_some, List.length_singleton]
    omega

theorem inside_isReadAs (hlow : 0 < d.point) (hhigh : d.point.toNat < digitCount d.digits) :
    d.IsReadAs ((Text.ofNat d.digits).take d.point.toNat ++ "." ++
      (Text.ofNat d.digits).drop d.point.toNat) := by
  obtain ⟨digits, h, hlength⟩ := exists_digits d.digits
  have hwhole := List.forall₂_take d.point.toNat h.ascii
  have hfraction := List.forall₂_drop d.point.toNat h.ascii
  refine isReadAs_of_digits ?_ hwhole (.present hfraction) .absent ?_ rfl 0 ?_ ?_
  · rw [List.append_nil, List.append_assoc]
    rfl
  · rw [ne_eq, List.take_eq_nil_iff, not_or]
    exact ⟨by omega, h.ne_nil⟩
  · rw [Option.getD_some, List.take_append_drop, h.value, pow_zero, mul_one]
  · simp only [Option.getD_none, Option.getD_some, List.length_drop]
    omega

theorem positional_isReadAs (d : DecimalForm) :
    d.IsReadAs (plain.positional (Text.ofNat d.digits) d.point) := by
  unfold NumberLayout.positional
  rw [length_ofNat]
  split_ifs with hbefore hbehind hkeeps
  · exact before_isReadAs hbefore
  · exact behind_isReadAs hbehind
  · exact absurd rfl hkeeps
  · exact inside_isReadAs (not_le.1 hbefore) (not_le.1 hbehind)

/-- The exponent of a layout, filled with zeros or not. -/
theorem writesExponent (e : ℤ) (k : ℕ) : WritesExponent Text.asciiDigit? (some e)
    ((if e < 0 then Text.ofString "e-" else Text.ofString "e+") ++ zeros k ++
      Text.ofNat e.natAbs) := by
  obtain ⟨digits, h, -⟩ := exists_digits e.natAbs
  have hrow : WritesDigits Text.asciiDigit? (List.replicate k 0 ++ digits)
      (zeros k ++ Text.ofNat e.natAbs) := List.rel_append (writesDigits_zeros k) h.ascii
  have hne : List.replicate k 0 ++ digits ≠ [] := by simp [h.ne_nil]
  have hvalue := Text.ofDigits_zeros_append 10 k digits
  rw [h.value] at hvalue
  by_cases hsign : e < 0
  · have hwritten := WritesExponent.present (.inl rfl) .minus hrow hne
    have heq : -(e.natAbs : ℤ) = e := by omega
    rw [if_pos rfl, hvalue, heq] at hwritten
    rw [if_pos hsign, List.append_assoc]
    exact hwritten
  · have hwritten := WritesExponent.present (.inl rfl) .plus hrow hne
    have heq : (e.natAbs : ℤ) = e := by omega
    rw [if_neg Bool.false_ne_true, hvalue, heq] at hwritten
    rw [if_neg hsign, List.append_assoc]
    exact hwritten

theorem scientific_isReadAs (d : DecimalForm) :
    d.IsReadAs (plain.scientific (Text.ofNat d.digits) d.point) := by
  obtain ⟨digits, h, hlength⟩ := exists_digits d.digits
  have hascii := h.ascii
  have hvalue := h.value
  unfold NumberLayout.scientific
  dsimp only
  generalize Text.ofNat d.digits = w at hascii ⊢
  cases hascii with
  | nil => exact absurd rfl h.ne_nil
  | @cons first c ds rest hc hrest =>
    have hfraction : ∃ fraction, WritesFraction Text.asciiDigit? fraction
        (if rest.isEmpty then [] else "." ++ rest) ∧ fraction.getD [] = ds := by
      cases hrest with
      | nil => exact ⟨none, .absent, rfl⟩
      | cons hc hrest => exact ⟨some _, .present (.cons hc hrest), rfl⟩
    obtain ⟨fraction, hwritten, hds⟩ := hfraction
    have hexponent := writesExponent (d.point - 1)
      (plain.exponentDigits - (Text.ofNat (d.point - 1).natAbs).length)
    refine isReadAs_of_digits (w := [c]) ?_ (.cons hc .nil) hwritten hexponent
      (List.cons_ne_nil _ _) (Bool.and_false _) 0 ?_ ?_
    · simp only [List.append_assoc]
      rfl
    · rw [hds, pow_zero, mul_one, ← hvalue]
      rfl
    · rw [hds, Option.getD_some, ← hlength, List.length_cons]
      omega

theorem writeDecimal_isReadAs (d : DecimalForm) : d.IsReadAs (plain.writeDecimal d) := by
  unfold NumberLayout.writeDecimal
  split_ifs
  · exact positional_isReadAs d
  · exact scientific_isReadAs d

end DecimalForm

/-! ## Texts without blanks -/

theorem isBlank_of_writesSign {negative : Bool} {sign : Text} (h : WritesSign negative sign) :
    ∀ c ∈ sign, Text.isBlank c = false := by
  cases h <;> decide

theorem isBlank_of_writes {n : Numeral} {w : Text} (h : n.Writes Text.asciiDigit? w) :
    ∀ c ∈ w, Text.isBlank c = false := by
  obtain @⟨whole, f, e, hwhole, hfraction, hexponent, -⟩ := h
  have hf : ∀ c ∈ f, Text.isBlank c = false := by
    generalize n.fraction = fraction at hfraction
    cases hfraction with
    | absent => simp
    | present hdigits => exact List.forall_mem_cons.2 ⟨by decide, isBlank_of_writesDigits hdigits⟩
  have he : ∀ c ∈ e, Text.isBlank c = false := by
    generalize n.exponent = exponent at hexponent
    cases hexponent with
    | absent => simp
    | present hmark hsign hdigits _ =>
      refine List.forall_mem_cons.2 ⟨?_, List.forall_mem_append.2
        ⟨isBlank_of_writesSign hsign, isBlank_of_writesDigits hdigits⟩⟩
      obtain rfl | rfl := hmark <;> decide
  exact List.forall_mem_append.2
    ⟨isBlank_of_writesDigits hwhole, List.forall_mem_append.2 ⟨hf, he⟩⟩

/-! ## Numbers that are read back -/

namespace Number

variable {n : Number} {i : ℤ} {x : Double} {q : ℚ}

/-- The sign of a number that is written. -/
theorem writesSign (negative : Bool) :
    WritesSign negative (if negative then Text.ofString "-" else []) := by
  cases negative with
  | false => exact .absent
  | true => exact .minus

/-- The digits of a short integer are read as that integer. -/
@[simp] theorem ofText_ofInt (h : |i| < 10 ^ exactDigits) : ofText (Text.ofInt i) = int i := by
  have hsigned : Text.ofInt i =
      (if decide (i < 0) then Text.ofString "-" else []) ++ Text.ofNat i.natAbs := by
    cases i with
    | ofNat n => rfl
    | negSucc n =>
      rw [decide_eq_true (Int.negSucc_lt_zero n)]
      rfl
  obtain ⟨digits, hdigits⟩ := exists_writesInteger i.natAbs
  have hlength : digits.length ≤ exactDigits := by
    rw [hdigits.length_le_iff]
    rw [Int.abs_eq_natAbs] at h
    exact_mod_cast h
  have htrim : (Text.ofInt i).trim =
      (if decide (i < 0) then Text.ofString "-" else []) ++ Text.ofNat i.natAbs := by
    rw [hsigned]
    exact trim_of_visible (List.forall_mem_append.2
      ⟨isBlank_of_writesSign (writesSign _), isBlank_of_writesDigits hdigits.ascii⟩)
  have hvalue : (if decide (i < 0) then -(i.natAbs : ℤ) else i.natAbs) = i := by
    split_ifs with hneg
    · have := of_decide_eq_true hneg
      omega
    · have := of_decide_eq_false (Bool.not_eq_true _ ▸ hneg)
      omega
  have hrange : (int i).IsInRange := by
    refine .int (le_trans h.le ?_)
    exact_mod_cast pow_exactDigits_le
  rw [ofText_of_digits (writesSign _) hdigits.ascii hdigits.ne_nil htrim,
    ofNumeral_digits _ hlength, hdigits.value, hvalue, hrange.collapse_eq]

/-- What the plain layout writes for a double is read as that double. -/
theorem ofText_write {negative : Bool} {m : ℕ} {e : ℤ} (h : Double.Canonical m e) (hm : 0 < m) :
    ofText (plain.write (.finite negative m e h)) = double (.finite negative m e h) := by
  obtain ⟨hshortest, -⟩ := DecimalForm.shortest_spec h hm
  obtain ⟨n, hwrites, hinteger, hvalue⟩ :=
    DecimalForm.writeDecimal_isReadAs (DecimalForm.shortest m e)
  have hwrite : plain.write (.finite negative m e h) =
      (if negative then Text.ofString "-" else []) ++
        plain.writeDecimal (DecimalForm.shortest m e) := by
    simp only [NumberLayout.write, if_neg hm.ne']
  have htrim := trim_of_visible (List.forall_mem_append.2
    ⟨isBlank_of_writesSign (writesSign negative), isBlank_of_writes hwrites⟩)
  have hpos : 0 < n.value := by
    rw [hvalue]
    exact (DecimalForm.tenPow_pos _).trans_le (DecimalForm.value_bounds hshortest.pos).1
  have hdouble : n.toDouble negative = .finite negative m e h := by
    rw [Numeral.toDouble_eq, DecimalForm.ofMagnitude_eq_finite_iff negative hpos h, hvalue]
    exact hshortest.inside
  rw [hwrite, ofText_of_writes (writesSign negative) hwrites htrim, ofNumeral, hinteger,
    Bool.false_and, if_neg Bool.false_ne_true, hdouble]
  rfl

/-- What a double is written as is read as a number that equals it. -/
theorem ofText_numberText_double (hx : x.isNaN = false) :
    (ofText (Value.numberText (double x))).equals (double x) = true := by
  cases x with
  | nan => cases hx
  | infinity negative => cases negative <;> decide
  | finite negative m e h =>
    have hq : (Double.finite negative m e h).toRat? =
        some (if negative then -(m * Double.twoPow e) else m * Double.twoPow e) := rfl
    generalize (if negative then -(m * Double.twoPow e) else m * Double.twoPow e : ℚ) = q at hq
    obtain ⟨hsmall, hlarge⟩ := numberText_double hq
    have hplace := Double.toExtended?_eq_rational.2 hq
    by_cases hintegral : ∃ i : ℤ, q = i ∧ |i| < 10 ^ 21
    · obtain ⟨i, rfl, hi⟩ := hintegral
      have hread : |i| < 10 ^ exactDigits := hi.trans (by decide +kernel)
      rw [hsmall i rfl hi, ofText_ofInt hread]
      exact equals_iff.2 ⟨_, rfl, hplace⟩
    · have hm : 0 < m := by
        by_contra hzero
        have hq : q = 0 := by
          have hzero' := (Double.isZero_iff_of_toRat? hq).1
          exact hzero' (by simp [Double.isZero, Nat.eq_zero_of_not_pos hzero])
        exact hintegral ⟨0, by rw [hq, Int.cast_zero], by norm_num⟩
      have hwritten := hlarge fun i hi => not_lt.1 fun hless => hintegral ⟨i, hi, hless⟩
      rw [hwritten, ofText_write h hm]
      exact equals_iff.2 ⟨_, hplace, hplace⟩

/-- What a number is written as is read as a number that equals it: a double, an integer below
`10 ^ 21`, or one beyond the finite doubles, which counts as an infinity. -/
theorem ofText_toText (n : Number) (hnumber : n.isNaN = false)
    (hsize : ∀ i : ℤ, n = int i → |i| < 10 ^ 21 ∨ Double.maxFinite < |i|) :
    (ofText (Value.toText (.number n))).equals n.collapse = true := by
  have htext : Value.toText (.number n) = Value.numberText n := rfl
  rw [htext]
  cases n with
  | double x => exact ofText_numberText_double hnumber
  | int i =>
    obtain hsmall | hbeyond := hsize i rfl
    · have hread : |i| < 10 ^ exactDigits := hsmall.trans (by decide +kernel)
      have hrange : (int i).IsInRange := .int (hread.le.trans pow_exactDigits_le)
      rw [numberText_small hsmall, ofText_ofInt hread, hrange.collapse_eq]
      exact equals_iff.2 ⟨_, rfl, rfl⟩
    · have hrange : ¬ (int i).IsInRange := by
        rw [isInRange_int_iff]
        exact not_le.2 hbeyond
      obtain ⟨negative, hcollapse⟩ := collapse_of_not_isInRange hrange
      rw [numberText_of_not_isInRange hcollapse, hcollapse]
      exact ofText_numberText_double rfl

/-- A double with a filled exponent, and an integer that counts as the infinity. -/
theorem ofText_toText_padded :
    (ofText (Value.toText (.number (double (Double.ofRat (-1 / 100000)))))).equals
        (double (Double.ofRat (-1 / 100000))) = true ∧
      (ofText (Value.toText (.number (int (-(10 ^ 400)))))).equals
        (double (.infinity true)) = true := by
  have hcollapse : (int (-(10 ^ 400))).collapse = double (.infinity true) := by decide +kernel
  constructor
  · refine ofText_toText (double (Double.ofRat (-1 / 100000))) (by decide +kernel) fun i hi => ?_
    cases hi
  · rw [← hcollapse]
    refine ofText_toText (int (-(10 ^ 400))) rfl fun i hi => ?_
    rw [← Number.int.inj hi]
    exact .inr (by decide +kernel)

end Number

end SceneTemplates
