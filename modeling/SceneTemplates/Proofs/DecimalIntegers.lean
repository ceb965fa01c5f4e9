import Mathlib.Tactic.IntervalCases
import SceneTemplates.Proofs.EqualNumbers
import SceneTemplates.Proofs.Lexemes
import SceneTemplates.Proofs.NumeralValues
import SceneTemplates.Template.Extraction

/-!
# Decimal integers

The digits of an integer are read in three places: as a token of a source, as a text that stands for
a number, and as the attribute of a tag. All three come to the same number. It is the integer while
that has at most 308 digits, and the nearest double from there on, although the integers of 309
digits lie on both sides of the largest double.
-/
namespace SceneTemplates

open Numeral (WritesDigits)

variable {N : ℕ} {digits : List ℕ} {t : Text}

/-! ## The digits of an integer -/

/-- The digits that an integer is written with. -/
structure WritesInteger (N : ℕ) (digits : List ℕ) (t : Text) : Prop where
  ne_nil : digits ≠ []
  ascii : WritesDigits Text.asciiDigit? digits t
  decimal : WritesDigits Text.decimalDigit? digits t
  value : Text.ofDigits 10 digits = N
  length_le_iff : digits.length ≤ Number.exactDigits ↔ N < 10 ^ Number.exactDigits

/-- The ten digits have the same values in every reader. -/
theorem digit?_of_isDigit {c : Char} (h : c.isDigit = true) :
    Text.asciiDigit? c.toNat = some (c.toNat - 48) ∧
      Text.decimalDigit? c.toNat = some (c.toNat - 48) := by
  have hrange : 48 ≤ c.toNat ∧ c.toNat ≤ 57 := by
    simpa [Char.isDigit, UInt32.le_iff_toNat_le] using h
  obtain ⟨hlow, hhigh⟩ := hrange
  generalize c.toNat = point at hlow hhigh ⊢
  interval_cases point <;> decide

theorem exists_writesInteger (N : ℕ) : ∃ digits, WritesInteger N digits (Text.ofNat N) := by
  have hdigit : ∀ c ∈ Nat.toDigits 10 N, c.isDigit = true := fun c hc =>
    Nat.isDigit_of_mem_toDigits (by norm_num) (by norm_num) hc
  have hwritten : ∀ digit? : CodePoint → Option ℕ,
      (∀ c : Char, c.isDigit = true → digit? c.toNat = some (c.toNat - 48)) →
        WritesDigits digit? ((Nat.toDigits 10 N).map fun c => c.toNat - 48) (Text.ofNat N) := by
    intro digit? hvalue
    rw [WritesDigits, Text.ofNat, List.forall₂_map_left_iff, List.forall₂_map_right_iff]
    exact List.forall₂_same.2 fun c hc => hvalue c (hdigit c hc)
  refine ⟨(Nat.toDigits 10 N).map fun c => c.toNat - 48, ?_, ?_, ?_, ?_, ?_⟩
  · simp
  · exact hwritten _ fun c hc => (digit?_of_isDigit hc).1
  · exact hwritten _ fun c hc => (digit?_of_isDigit hc).2
  · have hvalue := Nat.ofDigitChars_ten_toDigits (n := N)
    rw [Nat.ofDigitChars_eq_foldl] at hvalue
    rw [Text.ofDigits, List.foldl_map]
    exact hvalue
  · have hlength : ∀ k, 0 < k → ((Nat.toDigits 10 N).length ≤ k ↔ N < 10 ^ k) :=
      fun k hk => Nat.length_toDigits_le_iff (by norm_num) hk
    rw [List.length_map]
    exact hlength Number.exactDigits (by decide)

/-! ## The number that the digits stand for -/

theorem Numeral.toDouble_digits (h : WritesInteger N digits t) :
    Numeral.toDouble false ⟨digits, none, none⟩ = Double.ofRat N := by
  have hvalue : Numeral.value ⟨digits, none, none⟩ = N := by
    simp [Numeral.value, DecimalForm.tenPow, h.value]
  rw [Numeral.toDouble_eq, hvalue, Double.ofRat_natCast]

namespace Number

/-- The number that the digits of an integer are read as. -/
def ofDecimal (N : ℕ) : Number :=
  if N < 10 ^ exactDigits then .int N else .double (Double.ofRat N)

theorem ofNumeral_writesInteger (h : WritesInteger N digits t) :
    ofNumeral false ⟨digits, none, none⟩ = ofDecimal N := by
  unfold ofDecimal
  by_cases hN : N < 10 ^ exactDigits
  · rw [if_pos hN, ofNumeral_digits false (h.length_le_iff.2 hN), h.value]
    rfl
  · have hlength : ¬ digits.length ≤ exactDigits := h.length_le_iff.not.2 hN
    rw [if_neg hN, ofNumeral, if_neg (by simpa [Numeral.isInteger] using hlength),
      Numeral.toDouble_digits h]

theorem pow_exactDigits_le : 10 ^ exactDigits ≤ Double.maxFinite := by decide +kernel

theorem isInRange_of_lt (h : N < 10 ^ exactDigits) : (int N).IsInRange := by
  have hcast : (N : ℤ) < 10 ^ exactDigits := by exact_mod_cast h
  refine .int ?_
  rw [Nat.abs_cast]
  exact hcast.le.trans pow_exactDigits_le

theorem isInRange_ofDecimal (N : ℕ) : (ofDecimal N).IsInRange := by
  unfold ofDecimal
  by_cases hN : N < 10 ^ exactDigits
  · rw [if_pos hN]
    exact isInRange_of_lt hN
  · rw [if_neg hN]
    exact .double _

/-- An integer that is rounded to a finite double equals it exactly if it is the value of some
double. An integer between the largest double and the bound is the value of none. -/
theorem ofRat_equals_iff (hN : N ≠ 0) (h : (N : ℚ) < Double.overflowBound) :
    (double (Double.ofRat N)).equals (int N).collapse = true ↔
      ∃ x : Double, x.toRat? = some (N : ℚ) := by
  have hsize : |(N : ℚ)| = N := abs_of_nonneg (Nat.cast_nonneg N)
  obtain ⟨v, hv, -⟩ := Double.exists_toRat?_ofRat (hsize.trans_lt h)
  have hplace : (double (Double.ofRat N)).toExtended? = some (.rational v) :=
    Double.toExtended?_eq_rational.2 hv
  by_cases hrange : (int N).IsInRange
  · have hself : (int N).toExtended? = some (.rational N) := rfl
    have hequals : (double (Double.ofRat N)).equals (int N) = true ↔ v = N := by
      simp [equals, hplace, hself]
    rw [hrange.collapse_eq, hequals]
    constructor
    · rintro rfl
      exact ⟨_, hv⟩
    · rintro ⟨x, hx⟩
      rw [Double.ofRat_self hx (Nat.cast_ne_zero.2 hN), hx] at hv
      exact (Option.some.inj hv).symm
  · refine iff_of_false ?_ ?_
    · obtain ⟨negative, hinfinite⟩ := collapse_of_not_isInRange hrange
      intro hequals
      obtain ⟨p, hp, hp'⟩ := equals_iff.1 hequals
      rw [hplace] at hp
      rw [hinfinite, ← hp] at hp'
      cases negative <;> cases hp'
    · rintro ⟨x, hx⟩
      have hmost := Double.abs_le_maxFinite hx
      have hcast : ((|(N : ℤ)| : ℤ) : ℚ) ≤ ((Double.maxFinite : ℤ) : ℚ) := by
        rw [Int.cast_abs]
        exact hmost
      exact hrange (.int (Int.cast_le.1 hcast))

theorem ofRat_equals_of_overflow (h : Double.overflowBound ≤ N) :
    (double (Double.ofRat N)).equals (int N).collapse = true := by
  have hinfinite : Double.ofRat N = .infinity false := by
    rw [Double.ofRat_natCast]
    exact (Double.ofMagnitude_eq_infinity_iff false (Nat.cast_nonneg N)).2 h
  have habove : Double.maxFinite < (N : ℤ) := by
    have hless : ((Double.maxFinite : ℤ) : ℚ) < ((N : ℤ) : ℚ) :=
      Double.maxFinite_lt_overflowBound.trans_le h
    exact Int.cast_lt.1 hless
  rw [hinfinite, collapse_int, if_pos habove]
  rfl

/-- The number that is read equals the integer, collapsed where it is beyond the finite doubles,
unless the integer has more than 308 digits and is rounded to a finite double of another value. -/
theorem ofDecimal_equals_iff (N : ℕ) :
    (ofDecimal N).equals (int N).collapse = true ↔
      N < 10 ^ exactDigits ∨ (∃ x : Double, x.toRat? = some (N : ℚ)) ∨ Double.overflowBound ≤ N := by
  unfold ofDecimal
  by_cases hexact : N < 10 ^ exactDigits
  · refine iff_of_true ?_ (.inl hexact)
    rw [if_pos hexact, (isInRange_of_lt hexact).collapse_eq]
    exact equals_iff.2 ⟨_, rfl, rfl⟩
  rw [if_neg hexact, or_iff_right hexact]
  by_cases hover : Double.overflowBound ≤ N
  · exact iff_of_true (ofRat_equals_of_overflow hover) (.inr hover)
  · have hN : N ≠ 0 := by
      rintro rfl
      exact hexact (Nat.pow_pos (by norm_num))
    rw [or_iff_left hover]
    exact ofRat_equals_iff hN (not_le.1 hover)

end Number

/-! ## The three readers -/

theorem asciiDigit?_isBlank {c d : ℕ} (h : Text.asciiDigit? c = some d) :
    Text.isBlank c = false ∧ c ≠ 't'.toNat ∧ c ≠ 'f'.toNat := by
  have hrange : 48 ≤ c ∧ c ≤ 57 := by
    unfold Text.asciiDigit? at h
    split_ifs at h with hdigit
    simpa using hdigit
  obtain ⟨hlow, hhigh⟩ := hrange
  interval_cases c <;> decide

theorem WritesInteger.head (h : WritesInteger N digits t) :
    ∃ c rest d, t = c :: rest ∧ Text.asciiDigit? c = some d := by
  obtain ⟨d, ds, rfl⟩ := List.exists_cons_of_ne_nil h.ne_nil
  obtain ⟨c, rest, hc, -, rfl⟩ := List.forall₂_cons_left_iff.1 h.ascii
  exact ⟨c, rest, d, rfl, hc⟩

theorem isBlank_of_writesDigits (h : WritesDigits Text.asciiDigit? digits t) :
    ∀ c ∈ t, Text.isBlank c = false := by
  induction h with
  | nil => simp
  | cons hc _ ih => exact List.forall_mem_cons.2 ⟨(asciiDigit?_isBlank hc).1, ih⟩

/-- A text without blanks is not trimmed. -/
theorem trim_of_visible (h : ∀ c ∈ t, Text.isBlank c = false) : t.trim = t := by
  have hfront : ∀ l : Text, (∀ c ∈ l, Text.isBlank c = false) → l.dropWhile Text.isBlank = l := by
    intro l hl
    cases l with
    | nil => rfl
    | cons c l => rw [List.dropWhile_cons, hl c List.mem_cons_self, if_neg Bool.false_ne_true]
  have hback : ∀ c ∈ t.reverse, Text.isBlank c = false := fun c hc => h c (List.mem_reverse.1 hc)
  rw [Text.trim, Text.trimBy, hfront t h, hfront _ hback, List.reverse_reverse]

/-- A text that stands for a number. -/
@[simp] theorem ofText_writesInteger (h : WritesInteger N digits t) :
    Number.ofText t = Number.ofDecimal N := by
  have htrim := trim_of_visible (isBlank_of_writesDigits h.ascii)
  have hread := Number.ofText_of_digits .absent h.ascii h.ne_nil htrim
  rw [hread, Number.ofNumeral_writesInteger h, (Number.isInRange_ofDecimal N).collapse_eq]

/-- The attribute of a tag. -/
theorem attribute_writesInteger (h : WritesInteger N digits t) :
    Attribute.ofText t = .ok (.literal (.number (Number.ofDecimal N))) := by
  obtain ⟨c, rest, d, rfl, hc⟩ := h.head
  have hread := Numeral.ofText?_digits h.decimal h.ne_nil
  have hsign := (Numeral.isDigitClass_asciiDigit?.ne_sign hc).1
  obtain ⟨-, htrue, hfalse⟩ := asciiDigit?_isBlank hc
  have hconstant : ¬ c :: rest = Text.ofString "true" ∧ ¬ c :: rest = Text.ofString "false" :=
    ⟨fun heq => htrue (List.cons.inj heq).1, fun heq => hfalse (List.cons.inj heq).1⟩
  have hnumber : Attribute.number? (c :: rest) = some (Number.ofDecimal N) := by
    have hunsigned : (if c = '-'.toNat then (true, rest) else (false, c :: rest)) =
        (false, c :: rest) := if_neg hsign
    simp only [Attribute.number?, hunsigned, hread, Number.ofNumeral_writesInteger h]
    simp [h.ne_nil]
  rw [Attribute.ofText, if_neg hconstant.1, if_neg hconstant.2, hnumber]

/-- The only token of a source. -/
theorem tokenize_writesInteger (h : WritesInteger N digits t) :
    tokenize t = .ok [⟨.number (Number.ofDecimal N), 0⟩, ⟨.finish, t.length⟩] := by
  obtain ⟨c, rest, d, rfl, hc⟩ := h.head
  have hnext := Lexer.next?_of_scan? (Numeral.scan?_digits h.decimal h.ne_nil)
  rw [Number.ofNumeral_writesInteger h] at hnext
  rw [tokenize, List.length_cons, Lexer.tokensFrom, if_neg (by simp [(asciiDigit?_isBlank hc).1]),
    hnext]
  simp [Lexer.tokensFrom]

open Number in
/-- The digits of an integer are read as one number as a token, as a text and as an attribute. It
equals the integer, or the infinity if that is beyond the finite doubles, exactly if the integer
has at most 308 digits, or is the value of a double, or is so large that it is rounded to the
infinity. -/
theorem readers_agree (N : ℕ) :
    tokenize (Text.ofNat N) =
      .ok [⟨.number (ofDecimal N), 0⟩, ⟨.finish, (Text.ofNat N).length⟩] ∧
    ofText (Text.ofNat N) = ofDecimal N ∧
    (∀ line, classify (.text (Text.ofNat N)) line = .ok (.literal (.number (ofDecimal N)))) ∧
    ((ofDecimal N).equals (int N).collapse = true ↔
      N < 10 ^ exactDigits ∨ (∃ x : Double, x.toRat? = some (N : ℚ)) ∨
        Double.overflowBound ≤ N) := by
  obtain ⟨digits, h⟩ := exists_writesInteger N
  refine ⟨tokenize_writesInteger h, ofText_writesInteger h, fun line => ?_, ofDecimal_equals_iff N⟩
  rw [classify, attribute_writesInteger h]

/-- An odd integer of 309 digits is within the range of doubles and is not read as it is. -/
theorem readers_round :
    ((Nat.pow 10 308 + 1 : ℕ) : ℤ) ≤ Double.maxFinite ∧
    ¬ (Number.ofText (Text.ofNat (Nat.pow 10 308 + 1))).equals
      (Number.int (Nat.pow 10 308 + 1 : ℕ)).collapse = true := by
  obtain ⟨digits, h⟩ := exists_writesInteger (Nat.pow 10 308 + 1)
  rw [ofText_writesInteger h]
  decide +kernel

end SceneTemplates
