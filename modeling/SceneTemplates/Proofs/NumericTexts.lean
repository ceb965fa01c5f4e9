import SceneTemplates.Number.Reading
import SceneTemplates.Proofs.CalculatedValues
import SceneTemplates.Proofs.WrittenNumerals

/-!
# Numeric texts

Which texts stand for a number, said apart from the reader: the empty one, a decimal numeral or
`Infinity` with an optional sign, and digits of base sixteen, eight or two behind their mark. The
reader takes these and one form more, digits of base two behind two marks. What it makes of an
integer is the number that the digits denote.
-/
namespace SceneTemplates

namespace Numeral

variable {digit? : CodePoint → Option ℕ} {digits : List ℕ} {t : Text} {n : Numeral}

theorem isDigitClass_asciiDigit? : IsDigitClass Text.asciiDigit? := by
  constructor <;> decide

/-! ## Texts that are a numeral -/

theorem writes_of_ofText? (h : ofText? digit? t = some n) : n.Writes digit? t := by
  unfold ofText? at h
  split at h
  · next found hfound =>
    obtain ⟨w, hw, hwrites⟩ := written_of_scan? hfound
    cases h
    rwa [hw, List.append_nil]
  · cases h

section Exact

variable {w : Text} (hclass : IsDigitClass digit?)

include hclass

theorem takeExponent_eq {exponent : Option ℤ} (h : WritesExponent digit? exponent w) :
    takeExponent digit? w = (exponent, []) := by
  cases h with
  | absent => rfl
  | @present mark negative digits sign t hmark hsign hdigits hne =>
    cases hdigits with
    | nil => exact absurd rfl hne
    | @cons d c ds t hc hds =>
      have htaken := takeDigits_of_written (.cons hc hds) []
      rw [List.append_nil] at htaken
      rw [Lexer.takeExponent_cons, takeSign_of_written hsign (hclass.ne_sign hc), htaken,
        if_pos (by simpa using hmark)]
      simp [takeDigits]

theorem takeDigits_before_exponent {exponent : Option ℤ} (h : WritesExponent digit? exponent w) :
    takeDigits digit? w = ([], w) := by
  cases h with
  | absent => rfl
  | present hmark hsign hdigits hne =>
    have htaken := takeDigits_exponent hclass (.present hmark hsign hdigits hne) (by simp) []
    rwa [List.append_nil] at htaken

theorem takeFraction_eq {fraction : Option (List ℕ)} {exponent : Option ℤ}
    (hf : WritesFraction digit? fraction t) (he : WritesExponent digit? exponent w) :
    Lexer.takeFraction digit? (t ++ w) = (fraction, w) ∧
      takeDigits digit? (t ++ w) = ([], t ++ w) := by
  have hdigits := takeDigits_before_exponent hclass he
  cases hf with
  | absent =>
    refine ⟨?_, hdigits⟩
    cases he with
    | absent => rfl
    | present hmark _ _ _ =>
      refine if_neg ?_
      obtain rfl | rfl := hmark <;> decide
  | present hwritten =>
    refine ⟨?_, takeDigits_cons_none hclass.point _⟩
    rw [List.cons_append, Lexer.takeFraction, if_pos rfl, takeDigits_of_written hwritten, hdigits,
      List.append_nil]

/-- A text that writes a numeral is scanned as that numeral. -/
theorem scan?_of_writes (h : n.Writes digit? w) : scan? digit? w = some (n, []) := by
  obtain @⟨whole, f, e, hwhole, hfraction, hexponent, hne⟩ := h
  obtain ⟨htaken, hdigits⟩ := takeFraction_eq hclass hfraction hexponent
  have hfound : ¬ (n.whole.isEmpty && (n.fraction.getD []).isEmpty) = true := by
    simpa [imp_iff_not_or] using hne
  rw [Lexer.scan?_eq, takeDigits_of_written hwhole, hdigits]
  simp only [List.append_nil, htaken, takeExponent_eq hclass hexponent]
  rw [if_neg hfound]

theorem ofText?_of_writes (h : n.Writes digit? w) : ofText? digit? w = some n := by
  simp only [ofText?, scan?_of_writes hclass h]

end Exact

@[simp] theorem mapM_eq_some : t.mapM digit? = some digits ↔ WritesDigits digit? digits t := by
  induction t generalizing digits with
  | nil =>
    rw [List.mapM_nil, WritesDigits, List.forall₂_nil_right_iff]
    exact ⟨fun h => (Option.some.inj h).symm, fun h => by rw [h]; rfl⟩
  | cons c t ih =>
    rw [List.mapM_cons, WritesDigits, List.forall₂_cons_right_iff]
    simp only [Option.bind_eq_bind, Option.bind_eq_some_iff, Option.pure_def, Option.some.injEq]
    constructor
    · rintro ⟨d, hd, ds, hds, rfl⟩
      exact ⟨d, ds, hd, ih.1 hds, rfl⟩
    · rintro ⟨d, ds, hd, hds, rfl⟩
      exact ⟨d, hd, ds, ih.2 hds, rfl⟩

/-- Digits alone are scanned as they are. -/
theorem scan?_digits (h : WritesDigits digit? digits t) (hne : digits ≠ []) :
    scan? digit? t = some (⟨digits, none, none⟩, []) := by
  have htaken : takeDigits digit? t = (digits, []) := by
    have hdigits := takeDigits_of_written h []
    rw [List.append_nil] at hdigits
    simpa [takeDigits] using hdigits
  rw [Lexer.scan?_eq, htaken]
  simp [Lexer.takeFraction, takeExponent, hne]

theorem ofText?_digits (h : WritesDigits digit? digits t) (hne : digits ≠ []) :
    ofText? digit? t = some ⟨digits, none, none⟩ := by
  simp only [ofText?, scan?_digits h hne]

/-- A numeral begins with no sign. -/
theorem Writes.head (hclass : IsDigitClass digit?) (h : n.Writes digit? t) :
    ∃ c rest, t = c :: rest ∧ c ≠ '-'.toNat ∧ c ≠ '+'.toNat := by
  obtain @⟨whole, fraction, exponent, hwhole, hfraction, hexponent, hne⟩ := h
  generalize n.whole = ds at hwhole hne
  generalize n.fraction = f at hfraction hne
  cases hwhole with
  | cons hc _ => exact ⟨_, _, rfl, hclass.ne_sign hc⟩
  | nil =>
    cases hfraction with
    | absent => simp at hne
    | present _ => exact ⟨_, _, rfl, by decide, by decide⟩

@[simp]
theorem isNaN_toDouble (negative : Bool) (n : Numeral) : (n.toDouble negative).isNaN = false := by
  unfold toDouble
  dsimp only
  split_ifs
  · rfl
  · rfl
  · rfl
  · exact Double.isNaN_ofMagnitude _ _

end Numeral

namespace Number

open Numeral (WritesDigits WritesSign)

variable {base m : ℕ} {n : ℤ} {t text : Text}

@[simp]
theorem isNaN_ofNumeral (negative : Bool) (n : Numeral) : (ofNumeral negative n).isNaN = false := by
  unfold ofNumeral
  split_ifs
  · rfl
  · rfl
  · exact n.isNaN_toDouble negative

theorem takeSign_eq (t : Text) : takeSign t = Lexer.takeSign t := by
  cases t <;> rfl

/-! ## Digits of a base -/

/-- Digits of a base, at least one, and the number that they denote. -/
inductive DenotesInBase (base : ℕ) : Text → ℕ → Prop where
  | intro {digits : List ℕ} {t : Text} (written : WritesDigits Text.hexDigit? digits t)
    (ne_nil : digits ≠ []) (bound : ∀ d ∈ digits, d < base) :
    DenotesInBase base t (Text.ofDigits base digits)

/-- The marks of the bases. -/
inductive IsMark : ℕ → CodePoint → Prop where
  | hexadecimal {mark : CodePoint} (h : mark = 'x'.toNat ∨ mark = 'X'.toNat) : IsMark 16 mark
  | octal {mark : CodePoint} (h : mark = 'o'.toNat ∨ mark = 'O'.toNat) : IsMark 8 mark
  | binary {mark : CodePoint} (h : mark = 'b'.toNat ∨ mark = 'B'.toNat) : IsMark 2 mark

/-- A zero, the mark of a base, and digits of that base. -/
inductive DenotesMarked : Text → ℕ → Prop where
  | intro {base n : ℕ} {mark : CodePoint} {t : Text} (hmark : IsMark base mark)
    (hdigits : DenotesInBase base t n) : DenotesMarked ('0'.toNat :: mark :: t) n

/-- Digits of base two behind two marks. -/
inductive DenotesTwiceMarked : Text → ℕ → Prop where
  | intro {n : ℕ} {first second : CodePoint} {t : Text} (hfirst : IsMark 2 first)
    (hsecond : IsMark 2 second) (hdigits : DenotesInBase 2 t n) :
    DenotesTwiceMarked ('0'.toNat :: first :: '0'.toNat :: second :: t) n

@[simp] theorem ofBase?_eq_some_iff : ofBase? base t = some m ↔ DenotesInBase base t m := by
  constructor
  · intro h
    unfold ofBase? at h
    split at h
    · next d ds hdigits =>
      split_ifs at h with hbound
      cases h
      exact .intro (Numeral.mapM_eq_some.1 hdigits) (List.cons_ne_nil _ _) (by simpa using hbound)
    · cases h
  · rintro ⟨hwritten, hne, hbound⟩
    obtain ⟨d, ds, rfl⟩ := List.exists_cons_of_ne_nil hne
    have hall : (d :: ds).all (· < base) = true := by simpa using hbound
    simp only [ofBase?, Numeral.mapM_eq_some.2 hwritten, if_pos hall]

theorem isMark_two_iff {mark : CodePoint} :
    IsMark 2 mark ↔ mark = 'b'.toNat ∨ mark = 'B'.toNat := by
  constructor
  · intro h
    cases h with
    | binary h => exact h
  · exact .binary

/-- No mark is a digit of base two. -/
theorem not_denotesInBase_marked {c mark : CodePoint} (h : IsMark 2 mark) :
    ¬ DenotesInBase 2 (c :: mark :: t) m := by
  rintro ⟨hwritten, -, hbound⟩
  have hvalue : Text.hexDigit? mark = some 11 := by
    obtain rfl | rfl := isMark_two_iff.1 h
    · rfl
    · rfl
  cases hwritten with
  | cons _ hrest =>
    cases hrest with
    | cons hmark _ =>
      rw [hvalue] at hmark
      cases hmark
      exact absurd (hbound 11 (by simp)) (by decide)

theorem ofBinary?_eq_some_iff : ofBinary? t = some m ↔
    DenotesInBase 2 t m ∨
      ∃ mark rest, IsMark 2 mark ∧ DenotesInBase 2 rest m ∧ t = '0'.toNat :: mark :: rest := by
  unfold ofBinary?
  split
  · next first mark rest =>
    have hcondition : (first = '0'.toNat && (mark = 'b'.toNat || mark = 'B'.toNat)) = true ↔
        first = '0'.toNat ∧ IsMark 2 mark := by
      rw [isMark_two_iff]
      simp
    by_cases hmarked : first = '0'.toNat ∧ IsMark 2 mark
    · rw [if_pos (hcondition.2 hmarked), ofBase?_eq_some_iff]
      obtain ⟨rfl, hmark⟩ := hmarked
      constructor
      · exact fun h => .inr ⟨mark, rest, hmark, h, rfl⟩
      · rintro (h | ⟨_, _, -, h, heq⟩)
        · exact absurd h (not_denotesInBase_marked hmark)
        · cases heq
          exact h
    · rw [if_neg (hcondition.not.2 hmarked), ofBase?_eq_some_iff]
      constructor
      · exact .inl
      · rintro (h | ⟨_, _, hmark, -, heq⟩)
        · exact h
        · cases heq
          exact absurd ⟨rfl, hmark⟩ hmarked
  · next hshort =>
    rw [ofBase?_eq_some_iff]
    constructor
    · exact .inl
    · rintro (h | ⟨mark, rest, -, -, rfl⟩)
      · exact h
      · exact absurd rfl (hshort _ _ _)

/-- The reader takes digits behind one mark, and those of base two behind two. -/
@[simp]
theorem ofRadix?_eq_some_iff : ofRadix? t = some m ↔ DenotesMarked t m ∨ DenotesTwiceMarked t m := by
  constructor
  · intro h
    unfold ofRadix? at h
    split at h
    · next first mark digits =>
      simp only [Bool.or_eq_true, decide_eq_true_eq] at h
      split_ifs at h with hzero hhexadecimal hoctal hbinary
      · rw [not_not.1 hzero]
        exact .inl (.intro (.hexadecimal hhexadecimal) (ofBase?_eq_some_iff.1 h))
      · rw [not_not.1 hzero]
        exact .inl (.intro (.octal hoctal) (ofBase?_eq_some_iff.1 h))
      · rw [not_not.1 hzero]
        obtain hdigits | ⟨second, rest, hsecond, hdigits, rfl⟩ := ofBinary?_eq_some_iff.1 h
        · exact .inl (.intro (.binary hbinary) hdigits)
        · exact .inr (.intro (.binary hbinary) hsecond hdigits)
    · cases h
  · rintro (@⟨base, m, mark, t, hmark, hdigits⟩ | @⟨m, first, second, t, hfirst, hsecond, hdigits⟩)
    · obtain ⟨rfl | rfl⟩ | ⟨rfl | rfl⟩ | ⟨rfl | rfl⟩ := hmark
      · exact ofBase?_eq_some_iff.2 hdigits
      · exact ofBase?_eq_some_iff.2 hdigits
      · exact ofBase?_eq_some_iff.2 hdigits
      · exact ofBase?_eq_some_iff.2 hdigits
      · exact ofBinary?_eq_some_iff.2 (.inl hdigits)
      · exact ofBinary?_eq_some_iff.2 (.inl hdigits)
    · have htwice := ofBinary?_eq_some_iff.2 (.inr ⟨second, t, hsecond, hdigits, rfl⟩)
      obtain rfl | rfl := isMark_two_iff.1 hfirst
      · exact htwice
      · exact htwice

/-! ## Texts with a sign -/

/-- A text that is read as a decimal numeral after its sign is written as one, and conversely. -/
theorem exists_ofText?_takeSign : (∃ n, Numeral.ofText? Text.asciiDigit? (takeSign t).2 = some n) ↔
    ∃ (negative : Bool) (sign w : Text) (n : Numeral), WritesSign negative sign ∧
      n.Writes Text.asciiDigit? w ∧ t = sign ++ w := by
  constructor
  · rintro ⟨n, h⟩
    obtain ⟨sign, hsigned, hsign⟩ := Numeral.takeSign_written t
    rw [takeSign_eq] at h
    exact ⟨_, sign, _, n, hsign, Numeral.writes_of_ofText? h, hsigned⟩
  · rintro ⟨negative, sign, w, n, hsign, hwrites, rfl⟩
    obtain ⟨c, rest, rfl, hc⟩ := hwrites.head Numeral.isDigitClass_asciiDigit?
    rw [takeSign_eq, Numeral.takeSign_of_written hsign hc]
    exact ⟨n, Numeral.ofText?_of_writes Numeral.isDigitClass_asciiDigit? hwrites⟩

theorem takeSign_eq_infinity : (takeSign t).2 = "Infinity" ↔
    ∃ negative sign, WritesSign negative sign ∧ t = sign ++ "Infinity" := by
  rw [takeSign_eq]
  constructor
  · intro h
    obtain ⟨sign, hsigned, hsign⟩ := Numeral.takeSign_written t
    rw [h] at hsigned
    exact ⟨_, sign, hsign, hsigned⟩
  · rintro ⟨negative, sign, hsign, rfl⟩
    rcases hsign with _ | _ | _ <;> rfl

/-! ## Texts that stand for a number -/

/-- The texts that stand for a number, without the blanks at their ends. -/
inductive IsNumeric : Text → Prop where
  | empty : IsNumeric []
  | decimal {negative : Bool} {sign t : Text} {n : Numeral} (hsign : WritesSign negative sign)
    (written : n.Writes Text.asciiDigit? t) : IsNumeric (sign ++ t)
  | infinity {negative : Bool} {sign : Text} (hsign : WritesSign negative sign) :
    IsNumeric (sign ++ "Infinity")
  | marked {t : Text} {n : ℕ} (h : DenotesMarked t n) : IsNumeric t

/-- The forms in the order in which the reader tries them. -/
theorem isNumeric_iff : IsNumeric t ↔
    t = [] ∨ (∃ n, Numeral.ofText? Text.asciiDigit? (takeSign t).2 = some n) ∨
      (takeSign t).2 = "Infinity" ∨ ∃ n, DenotesMarked t n := by
  rw [exists_ofText?_takeSign, takeSign_eq_infinity]
  constructor
  · intro h
    cases h with
    | empty => exact .inl rfl
    | decimal hsign hwrites => exact .inr (.inl ⟨_, _, _, _, hsign, hwrites, rfl⟩)
    | infinity hsign => exact .inr (.inr (.inl ⟨_, _, hsign, rfl⟩))
    | marked hmarked => exact .inr (.inr (.inr ⟨_, hmarked⟩))
  · rintro (rfl | ⟨_, _, _, _, hsign, hwrites, rfl⟩ | ⟨_, _, hsign, rfl⟩ | ⟨_, hmarked⟩)
    · exact .empty
    · exact .decimal hsign hwrites
    · exact .infinity hsign
    · exact .marked hmarked

/-- The texts that denote an integer exactly: at most 308 digits with an optional sign, and digits
behind the mark of their base. -/
inductive DenotesInteger : Text → ℤ → Prop where
  | decimal {negative : Bool} {sign t : Text} {digits : List ℕ} (hsign : WritesSign negative sign)
    (written : WritesDigits Text.asciiDigit? digits t) (ne_nil : digits ≠ [])
    (length_le : digits.length ≤ exactDigits) :
    DenotesInteger (sign ++ t)
      (if negative then -(Text.ofDigits 10 digits : ℤ) else Text.ofDigits 10 digits)
  | marked {t : Text} {n : ℕ} (h : DenotesMarked t n) : DenotesInteger t n

/-- What the reader makes of a text after the blanks at its ends are gone. -/
theorem ofText_eq (text : Text) (h : text.trim = t) :
    ofText text =
      if t.isEmpty then int 0
      else
        match Numeral.ofText? Text.asciiDigit? (takeSign t).2 with
        | some numeral => (ofNumeral (takeSign t).1 numeral).collapse
        | none =>
          if (takeSign t).2 = "Infinity" then double (.infinity (takeSign t).1)
          else
            match ofRadix? t with
            | some n => (int n).collapse
            | none => double .undetermined := by
  subst h
  rfl

theorem isNaN_ofText_iff (text : Text) : (ofText text).isNaN = false ↔
    IsNumeric text.trim ∨ ∃ n, DenotesTwiceMarked text.trim n := by
  rw [ofText_eq text rfl]
  generalize text.trim = t
  by_cases hempty : t = []
  · exact iff_of_true (by simp [hempty, isNaN]) (.inl (isNumeric_iff.2 (.inl hempty)))
  rw [if_neg (by simpa using hempty)]
  cases hdecimal : Numeral.ofText? Text.asciiDigit? (takeSign t).2 with
  | some n =>
    refine iff_of_true ?_ (.inl (isNumeric_iff.2 (.inr (.inl ⟨n, hdecimal⟩))))
    simp
  | none =>
    by_cases hinfinity : (takeSign t).2 = "Infinity"
    · refine iff_of_true ?_ (.inl (isNumeric_iff.2 (.inr (.inr (.inl hinfinity)))))
      simp only [if_pos hinfinity]
      rfl
    · simp only [if_neg hinfinity]
      cases hradix : ofRadix? t with
      | some n =>
        refine iff_of_true (isNaN_collapse _) ?_
        obtain hmarked | htwice := ofRadix?_eq_some_iff.1 hradix
        · exact .inl (.marked hmarked)
        · exact .inr ⟨n, htwice⟩
      | none =>
        have hmarks : ∀ n, ¬ (DenotesMarked t n ∨ DenotesTwiceMarked t n) := by
          intro n hn
          rw [ofRadix?_eq_some_iff.2 hn] at hradix
          cases hradix
        refine iff_of_false (by simp [isNaN, Double.undetermined, Double.isNaN]) ?_
        rw [isNumeric_iff, hdecimal]
        rintro ((h | ⟨n, hn⟩ | h | ⟨n, h⟩) | ⟨n, h⟩)
        · exact hempty h
        · cases hn
        · exact hinfinity h
        · exact hmarks n (.inl h)
        · exact hmarks n (.inr h)

/-! ## Integers that are denoted exactly -/

/-- Behind the zero before it, a mark goes on with no decimal numeral. -/
theorem ofText?_marked {mark : CodePoint} (h : IsMark base mark) (rest : Text) :
    Numeral.ofText? Text.asciiDigit? ('0'.toNat :: mark :: rest) = none := by
  have hother : Text.asciiDigit? mark = none ∧ mark ≠ '.'.toNat ∧
      (decide (mark = 'e'.toNat) || decide (mark = 'E'.toNat)) = false := by
    obtain ⟨rfl | rfl⟩ | ⟨rfl | rfl⟩ | ⟨rfl | rfl⟩ := h <;> decide
  obtain ⟨hdigit, hpoint, hexponent⟩ := hother
  have hzero : Text.asciiDigit? '0'.toNat = some 0 := rfl
  have hscan : Numeral.scan? Text.asciiDigit? ('0'.toNat :: mark :: rest) =
      some (⟨[0], none, none⟩, mark :: rest) := by
    have hfraction : Lexer.takeFraction Text.asciiDigit? (mark :: rest) = (none, mark :: rest) :=
      if_neg hpoint
    have hend : Numeral.takeExponent Text.asciiDigit? (mark :: rest) = (none, mark :: rest) := by
      rw [Lexer.takeExponent_cons, hexponent, if_neg Bool.false_ne_true]
    rw [Lexer.scan?_eq, Numeral.takeDigits_cons_some hzero, Numeral.takeDigits_cons_none hdigit]
    simp [hfraction, hend]
  simp only [Numeral.ofText?, hscan]

/-- Two marks are one too many. -/
theorem DenotesTwiceMarked.not_isNumeric (h : DenotesTwiceMarked t m) : ¬ IsNumeric t := by
  obtain @⟨m, first, second, t, hfirst, hsecond, hdigits⟩ := h
  have hsign : ∀ rest : Text, takeSign ('0'.toNat :: rest) = (false, '0'.toNat :: rest) :=
    fun _ => rfl
  rw [isNumeric_iff, hsign, ofText?_marked hfirst]
  rintro (hempty | ⟨n, hn⟩ | hinfinity | ⟨n, hmark, hbase⟩)
  · cases hempty
  · cases hn
  · cases hinfinity
  · cases hmark with
    | hexadecimal h | octal h =>
      have hletter := isMark_two_iff.1 hfirst
      revert h
      obtain rfl | rfl := hletter <;> decide
    | binary _ => exact not_denotesInBase_marked hsecond hbase

theorem ofText_of_ofRadix? (h : ofRadix? text.trim = some m) : ofText text = (int m).collapse := by
  generalize htrim : text.trim = t at h
  obtain ⟨base, mark, rest, hmark, rfl⟩ :
      ∃ base mark rest, IsMark base mark ∧ t = '0'.toNat :: mark :: rest := by
    obtain ⟨hmark, -⟩ | ⟨hfirst, -, -⟩ := ofRadix?_eq_some_iff.1 h
    · exact ⟨_, _, _, hmark, rfl⟩
    · exact ⟨_, _, _, hfirst, rfl⟩
  have hsign : takeSign ('0'.toNat :: mark :: rest) = (false, '0'.toNat :: mark :: rest) := rfl
  have hinfinity : ¬ '0'.toNat :: mark :: rest = Text.ofString "Infinity" := by
    intro heq
    cases heq
  rw [ofText_eq text htrim, hsign]
  simp only [List.isEmpty_cons, Bool.false_eq_true, if_false, ofText?_marked hmark,
    if_neg hinfinity, h]

/-- A numeral with an optional sign is read as that numeral. -/
theorem ofText_of_writes {negative : Bool} {sign w : Text} {n : Numeral}
    (hsign : WritesSign negative sign) (hwritten : n.Writes Text.asciiDigit? w)
    (htrim : text.trim = sign ++ w) : ofText text = (ofNumeral negative n).collapse := by
  obtain ⟨c, rest, rfl, hc⟩ := hwritten.head Numeral.isDigitClass_asciiDigit?
  have htaken := Numeral.takeSign_of_written hsign hc rest
  have hread := Numeral.ofText?_of_writes Numeral.isDigitClass_asciiDigit? hwritten
  have hnonempty : (sign ++ c :: rest).isEmpty = false := by
    cases hsign <;> rfl
  rw [ofText_eq text htrim, takeSign_eq, htaken, hnonempty]
  simp only [Bool.false_eq_true, if_false, hread]

/-- Digits with an optional sign are read as a numeral without a point. -/
theorem ofText_of_digits {negative : Bool} {sign w : Text} {digits : List ℕ}
    (hsign : WritesSign negative sign) (hwritten : WritesDigits Text.asciiDigit? digits w)
    (hne : digits ≠ []) (htrim : text.trim = sign ++ w) :
    ofText text = (ofNumeral negative ⟨digits, none, none⟩).collapse := by
  have hnumeral : (Numeral.mk digits none none).Writes Text.asciiDigit? (w ++ ([] ++ [])) :=
    ⟨hwritten, .absent, .absent, .inl hne⟩
  rw [List.append_nil, List.append_nil] at hnumeral
  exact ofText_of_writes hsign hnumeral htrim

/-- A short row of digits is exact. -/
@[simp]
theorem ofNumeral_digits (negative : Bool) {digits : List ℕ} (h : digits.length ≤ exactDigits) :
    ofNumeral negative ⟨digits, none, none⟩ =
      int (if negative then -(Text.ofDigits 10 digits : ℤ) else Text.ofDigits 10 digits) := by
  unfold ofNumeral
  rw [if_pos (by simpa [Numeral.isInteger] using h)]
  rfl

/-- A text stands for a number exactly if it is written as one or is marked twice. What denotes an
integer exactly stands for that integer, or for the infinity if it is beyond the finite doubles. -/
theorem ofText_numeric (text : Text) :
    ((ofText text).isNaN = false ↔ IsNumeric text.trim ∨ ∃ n, DenotesTwiceMarked text.trim n) ∧
    (∀ n, DenotesInteger text.trim n → ofText text = (int n).collapse) ∧
    ∀ n, DenotesTwiceMarked text.trim n → ofText text = (int n).collapse := by
  refine ⟨isNaN_ofText_iff text, fun n h => ?_, fun n h => ?_⟩
  · generalize htrim : text.trim = t at h
    cases h with
    | decimal hsign hwritten hne hlength =>
      simp [ofText_of_digits hsign hwritten hne htrim, hlength]
    | marked hmarked =>
      rw [← htrim] at hmarked
      exact ofText_of_ofRadix? (ofRadix?_eq_some_iff.2 (.inl hmarked))
  · exact ofText_of_ofRadix? (ofRadix?_eq_some_iff.2 (.inr h))

/-- Digits of base eight with an upper-case mark, between blanks. -/
theorem ofText_numeric_octal : ofText " 0O17\n" = (int 15).collapse := by
  have htrim : Text.trim " 0O17\n" = '0'.toNat :: 'O'.toNat :: Text.ofString "17" := by decide
  have hdigits : DenotesInBase 8 "17" 15 := ofBase?_eq_some_iff.1 (by decide)
  refine (ofText_numeric " 0O17\n").2.1 15 ?_
  rw [htrim]
  exact .marked (.intro (.octal (.inr rfl)) hdigits)

/-- A text that is marked twice stands for a number although it is not written as one. -/
theorem ofText_marked_twice :
    ¬ ((ofText "0b0b1").isNaN = false ↔ IsNumeric (Text.trim "0b0b1")) := by
  have htrim : Text.trim "0b0b1" =
      '0'.toNat :: 'b'.toNat :: '0'.toNat :: 'b'.toNat :: Text.ofString "1" := by decide
  have htwice : DenotesTwiceMarked (Text.trim "0b0b1") 1 := by
    rw [htrim]
    exact .intro (.binary (.inl rfl)) (.binary (.inl rfl)) (ofBase?_eq_some_iff.1 (by decide))
  have hnumber : (ofText "0b0b1").isNaN = false := (isNaN_ofText_iff _).2 (.inr ⟨1, htwice⟩)
  exact fun h => htwice.not_isNumeric (h.1 hnumber)

end Number

end SceneTemplates
