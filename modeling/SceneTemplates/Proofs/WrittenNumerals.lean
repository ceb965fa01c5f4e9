import SceneTemplates.Proofs.TokenSeams

/-!
# Written numerals

How a numeral is written, said apart from the scanner: digits, a fraction behind a point, an
exponent behind a mark. The scanner takes a numeral that is written so, and none that stands at the
front of the text is longer.
-/
namespace SceneTemplates.Numeral

/-- Digits among which neither the point nor a mark or a sign of an exponent is. -/
structure IsDigitClass (digit? : CodePoint → Option Nat) : Prop where
  point : digit? '.'.toNat = none
  mark : digit? 'e'.toNat = none ∧ digit? 'E'.toNat = none
  sign : digit? '-'.toNat = none ∧ digit? '+'.toNat = none

theorem isDigitClass_decimalDigit? : IsDigitClass Text.decimalDigit? := by
  constructor <;> decide

variable (digit? : CodePoint → Option Nat)

/-- A row of digits, each with its value. -/
def WritesDigits (digits : List Nat) (t : Text) : Prop :=
  List.Forall₂ (fun d c => digit? c = some d) digits t

/-- The sign of an exponent, which may be left out. -/
inductive WritesSign : Bool → Text → Prop
  | absent : WritesSign false []
  | plus : WritesSign false ['+'.toNat]
  | minus : WritesSign true ['-'.toNat]

/-- A point with digits behind it, or nothing. -/
inductive WritesFraction : Option (List Nat) → Text → Prop
  | absent : WritesFraction none []
  | present {digits : List Nat} {t : Text} (h : WritesDigits digit? digits t) :
    WritesFraction (some digits) ('.'.toNat :: t)

/-- A mark with an optional sign and at least one digit, or nothing. -/
inductive WritesExponent : Option Int → Text → Prop
  | absent : WritesExponent none []
  | present {mark : CodePoint} {negative : Bool} {digits : List Nat} {sign t : Text}
    (hmark : mark = 'e'.toNat ∨ mark = 'E'.toNat) (hsign : WritesSign negative sign)
    (hdigits : WritesDigits digit? digits t) (hne : digits ≠ []) :
    WritesExponent
      (some (if negative then -(Text.ofDigits 10 digits : Int) else Text.ofDigits 10 digits))
      (mark :: (sign ++ t))

/-- The ways to write a numeral. It has a digit before its point or behind it. -/
inductive Writes (n : Numeral) : Text → Prop
  | intro {whole fraction exponent : Text} (hwhole : WritesDigits digit? n.whole whole)
    (hfraction : WritesFraction digit? n.fraction fraction)
    (hexponent : WritesExponent digit? n.exponent exponent)
    (hne : n.whole ≠ [] ∨ n.fraction.getD [] ≠ []) :
    Writes n (whole ++ (fraction ++ exponent))

variable {digit?} {digits : List Nat} {t rest : Text}

/-- No digit is a sign. -/
theorem IsDigitClass.ne_sign (hclass : IsDigitClass digit?) {c d : Nat} (h : digit? c = some d) :
    c ≠ '-'.toNat ∧ c ≠ '+'.toNat := by
  have hnone : ∀ {sign : Nat}, digit? sign = none → c ≠ sign := by
    rintro sign hsign rfl
    rw [h] at hsign
    cases hsign
  exact ⟨hnone hclass.sign.1, hnone hclass.sign.2⟩

/-! ## What is scanned is written so -/

theorem takeDigits_cons_some {c d : Nat} (h : digit? c = some d) (t : Text) :
    takeDigits digit? (c :: t) = (d :: (takeDigits digit? t).1, (takeDigits digit? t).2) := by
  simp only [takeDigits, h]

theorem takeDigits_cons_none {c : Nat} (h : digit? c = none) (t : Text) :
    takeDigits digit? (c :: t) = ([], c :: t) := by
  simp only [takeDigits, h]

theorem takeDigits_written (digit? : CodePoint → Option Nat) (t : Text) :
    ∃ w, t = w ++ (takeDigits digit? t).2 ∧ WritesDigits digit? (takeDigits digit? t).1 w := by
  induction t with
  | nil => exact ⟨[], rfl, .nil⟩
  | cons c t ih =>
    cases hc : digit? c with
    | none =>
      rw [takeDigits_cons_none hc]
      exact ⟨[], rfl, .nil⟩
    | some d =>
      rw [takeDigits_cons_some hc]
      obtain ⟨w, hw, hdigits⟩ := ih
      exact ⟨c :: w, by rw [List.cons_append, ← hw], .cons hc hdigits⟩

open Lexer (takeSign takeFraction takeExponent_cons scan?_eq)

theorem takeSign_written (t : Text) :
    ∃ sign, t = sign ++ (takeSign t).2 ∧ WritesSign (takeSign t).1 sign := by
  cases t with
  | nil => exact ⟨[], rfl, .absent⟩
  | cons c t =>
    rw [takeSign]
    split
    · next hminus => exact ⟨['-'.toNat], by simp [hminus], .minus⟩
    · split
      · next hplus => exact ⟨['+'.toNat], by simp [hplus], .plus⟩
      · exact ⟨[], rfl, .absent⟩

theorem takeFraction_written (digit? : CodePoint → Option Nat) (t : Text) :
    ∃ w, t = w ++ (takeFraction digit? t).2 ∧ WritesFraction digit? (takeFraction digit? t).1 w := by
  cases t with
  | nil => exact ⟨[], rfl, .absent⟩
  | cons c t =>
    rw [takeFraction]
    split
    · next hpoint =>
      obtain ⟨w, hw, hdigits⟩ := takeDigits_written digit? t
      exact ⟨'.'.toNat :: w, by rw [List.cons_append, ← hw, hpoint], .present hdigits⟩
    · exact ⟨[], rfl, .absent⟩

theorem takeExponent_written (digit? : CodePoint → Option Nat) (t : Text) :
    ∃ w, t = w ++ (takeExponent digit? t).2 ∧ WritesExponent digit? (takeExponent digit? t).1 w := by
  cases t with
  | nil => exact ⟨[], rfl, .absent⟩
  | cons mark t =>
    rw [takeExponent_cons]
    split
    · next hmark =>
      obtain ⟨sign, hsigned, hsign⟩ := takeSign_written t
      obtain ⟨w, hw, hdigits⟩ := takeDigits_written digit? (takeSign t).2
      rcases htaken : takeDigits digit? (takeSign t).2 with ⟨_ | ⟨d, ds⟩, rest⟩
      · exact ⟨[], rfl, .absent⟩
      · rw [htaken] at hw hdigits
        refine ⟨mark :: (sign ++ w), ?_, .present (by simpa using hmark) hsign hdigits (by simp)⟩
        rw [List.cons_append, List.append_assoc, ← hw, ← hsigned]
    · exact ⟨[], rfl, .absent⟩

theorem written_of_scan? {n : Numeral} (h : scan? digit? t = some (n, rest)) :
    ∃ w, t = w ++ rest ∧ n.Writes digit? w := by
  rw [scan?_eq] at h
  dsimp only at h
  split at h
  · cases h
  · next hne =>
    cases h
    obtain ⟨whole, hw, hwhole⟩ := takeDigits_written digit? t
    obtain ⟨fraction, hf, hfraction⟩ := takeFraction_written digit? (takeDigits digit? t).2
    obtain ⟨exponent, he, hexponent⟩ := takeExponent_written digit?
      (takeFraction digit? (takeDigits digit? t).2).2
    refine ⟨whole ++ (fraction ++ exponent), ?_, ⟨hwhole, hfraction, hexponent, ?_⟩⟩
    · rw [List.append_assoc, List.append_assoc, ← he, ← hf, ← hw]
    · simpa [imp_iff_not_or] using hne

/-! ## What is written is scanned, and no less -/

/-- Written digits are taken, with those that follow. -/
theorem takeDigits_of_written (h : WritesDigits digit? digits t) (more : Text) :
    takeDigits digit? (t ++ more) =
      (digits ++ (takeDigits digit? more).1, (takeDigits digit? more).2) := by
  induction h with
  | nil => rfl
  | cons hc _ ih => rw [List.cons_append, takeDigits_cons_some hc, ih, List.cons_append]

theorem takeDigits_le (digit? : CodePoint → Option Nat) (t : Text) :
    (takeDigits digit? t).2.length ≤ t.length := by
  have h := Lexer.takeDigits_length digit? t
  omega

theorem takeFraction_le (digit? : CodePoint → Option Nat) (t : Text) :
    (takeFraction digit? t).2.length ≤ t.length := by
  have h := Lexer.takeFraction_length digit? t
  omega

theorem takeSign_of_written {negative : Bool} {sign : Text} {c : CodePoint}
    (h : WritesSign negative sign) (hc : c ≠ '-'.toNat ∧ c ≠ '+'.toNat) (more : Text) :
    takeSign (sign ++ c :: more) = (negative, c :: more) := by
  cases h with
  | absent => rw [List.nil_append, takeSign, if_neg hc.1, if_neg hc.2]
  | plus => rfl
  | minus => rfl

variable (hclass : IsDigitClass digit?)

include hclass

/-- A written exponent ends the digits before it. -/
theorem takeDigits_exponent {exponent : Option Int} {w : Text}
    (h : WritesExponent digit? exponent w) (hne : w ≠ []) (more : Text) :
    takeDigits digit? (w ++ more) = ([], w ++ more) := by
  cases h with
  | absent => exact absurd rfl hne
  | present hmark _ _ _ =>
    refine takeDigits_cons_none ?_ _
    rcases hmark with rfl | rfl
    · exact hclass.mark.1
    · exact hclass.mark.2

/-- Behind a written exponent no more is left than follows it. -/
theorem takeExponent_of_written {exponent : Option Int} {w : Text}
    (h : WritesExponent digit? exponent w) (more : Text) :
    (takeExponent digit? (w ++ more)).2.length ≤ more.length := by
  cases h with
  | absent => exact Lexer.takeExponent_length digit? more
  | @present mark negative digits sign t hmark hsign hdigits hne =>
    cases hdigits with
    | nil => exact absurd rfl hne
    | @cons d c ds t hc hds =>
      have hhead := hclass.ne_sign hc
      have htaken : takeDigits digit? (c :: (t ++ more)) = _ :=
        takeDigits_of_written (.cons hc hds) more
      rw [List.cons_append, List.append_assoc, List.cons_append, takeExponent_cons,
        takeSign_of_written hsign hhead, htaken, if_pos (by simpa using hmark)]
      exact takeDigits_le digit? more

/-- The same behind whatever digits follow an exponent that is left out. -/
theorem takeExponent_takeDigits {exponent : Option Int} {w : Text}
    (h : WritesExponent digit? exponent w) (more : Text) :
    (takeExponent digit? (takeDigits digit? (w ++ more)).2).2.length ≤ more.length := by
  by_cases hw : w = []
  · have hexponent := Lexer.takeExponent_length digit? (takeDigits digit? more).2
    have hdigits := takeDigits_le digit? more
    rw [hw, List.nil_append]
    omega
  · rw [takeDigits_exponent hclass h hw]
    exact takeExponent_of_written hclass h more

/-- A written exponent is no fraction. -/
theorem takeFraction_exponent {exponent : Option Int} {w : Text}
    (h : WritesExponent digit? exponent w) (more : Text) :
    (takeExponent digit? (takeFraction digit? (takeDigits digit? (w ++ more)).2).2).2.length ≤
      more.length := by
  cases h with
  | absent =>
    have hexponent := Lexer.takeExponent_length digit?
      (takeFraction digit? (takeDigits digit? more).2).2
    have hfraction := takeFraction_le digit? (takeDigits digit? more).2
    have hdigits := takeDigits_le digit? more
    rw [List.nil_append]
    omega
  | @present mark negative digits sign t hmark hsign hdigits hne =>
    have hwritten := WritesExponent.present hmark hsign hdigits hne
    have hpoint : mark ≠ '.'.toNat := by
      rcases hmark with rfl | rfl <;> decide
    rw [takeDigits_exponent hclass hwritten (by simp), List.cons_append, takeFraction,
      if_neg hpoint, ← List.cons_append]
    exact takeExponent_of_written hclass hwritten more

/-- Where a numeral is written the scanner finds one that is no shorter. -/
theorem exists_scan? {n : Numeral} {w : Text} (h : n.Writes digit? w) (more : Text) :
    ∃ n' rest, scan? digit? (w ++ more) = some (n', rest) ∧ rest.length ≤ more.length := by
  obtain @⟨whole, f, e, hwhole, hfraction, hexponent, hne⟩ := h
  rw [List.append_assoc, List.append_assoc, scan?_eq, takeDigits_of_written hwhole]
  generalize n.fraction = fraction at hfraction hne
  cases hfraction with
  | absent =>
    have hwritten : n.whole ≠ [] := by simpa using hne
    rw [List.nil_append]
    dsimp only
    rw [if_neg (by simp [hwritten])]
    exact ⟨_, _, rfl, takeFraction_exponent hclass hexponent more⟩
  | @present digits t hdigits =>
    have hpoint := takeDigits_cons_none hclass.point (t ++ (e ++ more))
    have hfound : ¬ (n.whole.isEmpty && (digits ++ (takeDigits digit? (e ++ more)).1).isEmpty) =
        true := by
      rcases hne with hne | hne <;> simp_all
    rw [List.cons_append, hpoint]
    dsimp only
    rw [takeFraction, if_pos rfl, takeDigits_of_written hdigits, List.append_nil, Option.getD_some,
      if_neg hfound]
    exact ⟨_, _, rfl, takeExponent_takeDigits hclass hexponent more⟩

end SceneTemplates.Numeral
