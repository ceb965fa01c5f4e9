import SceneTemplates.Expression.Lexer
import SceneTemplates.Proofs.Parentheses
import SceneTemplates.Proofs.Steps

/-!
# Seams between tokens

A code point that no token goes on with ends the token before it, whatever follows. So a source with
such a code point behind it is read as it is alone. The closing parenthesis is one.
-/
namespace SceneTemplates.Lexer

/-- A code point that no token before it can take in: it belongs to no number, no name and no symbol
but its own. -/
structure IsSeam (c : CodePoint) : Prop where
  digit : Text.decimalDigit? c = none
  point : c ≠ '.'.toNat
  mark : c ≠ 'e'.toNat ∧ c ≠ 'E'.toNat
  sign : c ≠ '-'.toNat ∧ c ≠ '+'.toNat
  name : isNamePart c = false
  symbol : ∀ s ∈ Symbol.all, c ∈ Text.ofString s.spelling → Text.ofString s.spelling = [c]

theorem isSeam_closeParen : IsSeam ')'.toNat := by
  constructor <;> decide

variable {c : CodePoint} {t more rest : Text} {k : TokenKind}

/-- A token takes something, and it is not the end. -/
structure Shortens (k : TokenKind) (t rest : Text) : Prop where
  length_lt : rest.length < t.length
  ne_finish : k ≠ .finish

/-! ## Symbols -/

@[simp] theorem behind?_nil (t : Text) : behind? [] t = some t := by
  cases t <;> rfl

@[simp] theorem behind?_cons (a d : CodePoint) (beginning t : Text) :
    behind? (a :: beginning) (d :: t) = if a = d then behind? beginning t else none := rfl

theorem behind?_append {beginning : Text} (h : c ∉ beginning) (t more : Text) :
    behind? beginning (t ++ c :: more) = (behind? beginning t).map (· ++ c :: more) := by
  induction beginning generalizing t with
  | nil => cases t <;> rfl
  | cons a beginning ih =>
    rw [List.mem_cons, not_or] at h
    cases t with
    | nil =>
      show (if a = c then behind? beginning more else none) = none
      exact if_neg (Ne.symm h.1)
    | cons d t =>
      rw [List.cons_append, behind?_cons, behind?_cons]
      by_cases had : a = d
      · rw [if_pos had, if_pos had]
        exact ih h.2 t
      · rw [if_neg had, if_neg had]
        rfl

theorem behind?_length {beginning : Text} (h : behind? beginning t = some rest) :
    t.length = beginning.length + rest.length := by
  induction beginning generalizing t with
  | nil =>
    cases t <;> cases h <;> simp
  | cons a beginning ih =>
    cases t with
    | nil => cases h
    | cons d t =>
      rw [behind?] at h
      split at h
      · have hlen := ih h
        simp only [List.length_cons]
        omega
      · cases h

theorem behind?_spelling (hc : IsSeam c) (ht : t ≠ []) {s : Symbol} (hs : s ∈ Symbol.all) :
    behind? (Text.ofString s.spelling) (t ++ c :: more) =
      (behind? (Text.ofString s.spelling) t).map (· ++ c :: more) := by
  by_cases hmem : c ∈ Text.ofString s.spelling
  · rw [hc.symbol s hs hmem]
    cases t with
    | nil => exact absurd rfl ht
    | cons d t =>
      rw [List.cons_append, behind?_cons, behind?_cons]
      by_cases hcd : c = d
      · rw [if_pos hcd, if_pos hcd, behind?_nil, behind?_nil]
        rfl
      · rw [if_neg hcd, if_neg hcd]
        rfl
  · exact behind?_append hmem t more

/-- A search whose results are mapped has the mapped result. -/
theorem findSome?_eq_map {α β γ : Type} {l : List α} {f : α → Option γ} {g : α → Option β}
    {h : β → γ} (hfg : ∀ a ∈ l, f a = (g a).map h) : l.findSome? f = (l.findSome? g).map h := by
  induction l with
  | nil => rfl
  | cons a l ih =>
    rw [List.findSome?_cons, List.findSome?_cons, hfg a List.mem_cons_self]
    cases g a with
    | some b => rfl
    | none => exact ih fun a ha => hfg a (List.mem_cons_of_mem _ ha)

theorem symbol?_append (hc : IsSeam c) (ht : t ≠ []) (more : Text) :
    symbol? (t ++ c :: more) = (symbol? t).map fun found => (found.1, found.2 ++ c :: more) := by
  have hbehind : ∀ s ∈ Symbol.all,
      ((behind? (Text.ofString s.spelling) (t ++ c :: more)).map fun rest => (s, rest)) =
        ((behind? (Text.ofString s.spelling) t).map fun rest => (s, rest)).map
          fun found => (found.1, found.2 ++ c :: more) := by
    intro s hs
    rw [behind?_spelling hc ht hs]
    cases behind? (Text.ofString s.spelling) t <;> rfl
  exact findSome?_eq_map hbehind

theorem spelling_ne_nil : ∀ s ∈ Symbol.all, Text.ofString s.spelling ≠ [] := by
  decide

theorem symbol?_shortens {s : Symbol} (h : symbol? t = some (s, rest)) :
    Shortens (.symbol s) t rest := by
  unfold symbol? at h
  obtain ⟨s', hs', hfound⟩ := List.exists_of_findSome?_eq_some h
  cases hb : behind? (Text.ofString s'.spelling) t with
  | none =>
    rw [hb] at hfound
    cases hfound
  | some rest' =>
    rw [hb] at hfound
    cases hfound
    have hlen := behind?_length hb
    have hpos := List.length_pos_iff.2 (spelling_ne_nil _ hs')
    exact ⟨by omega, fun he => by cases he⟩

/-! ## Numbers -/

@[simp] theorem takeDigits_append (hc : IsSeam c) (t more : Text) :
    Numeral.takeDigits Text.decimalDigit? (t ++ c :: more) =
      ((Numeral.takeDigits Text.decimalDigit? t).1,
        (Numeral.takeDigits Text.decimalDigit? t).2 ++ c :: more) := by
  induction t with
  | nil =>
    show Numeral.takeDigits Text.decimalDigit? (c :: more) = ([], c :: more)
    rw [Numeral.takeDigits, hc.digit]
  | cons d t ih =>
    rw [List.cons_append, Numeral.takeDigits, Numeral.takeDigits]
    cases Text.decimalDigit? d with
    | none => rfl
    | some digit =>
      dsimp only
      rw [ih]

theorem takeDigits_length (digit? : CodePoint → Option Nat) (t : Text) :
    t.length = (Numeral.takeDigits digit? t).1.length + (Numeral.takeDigits digit? t).2.length := by
  induction t with
  | nil => rfl
  | cons d t ih =>
    rw [Numeral.takeDigits]
    cases digit? d with
    | none => simp
    | some digit =>
      simp only [List.length_cons]
      omega

/-- The sign at the front of an exponent, and the rest. -/
def takeSign (t : Text) : Bool × Text :=
  match t with
  | sign :: more =>
    if sign = '-'.toNat then (true, more)
    else if sign = '+'.toNat then (false, more)
    else (false, t)
  | [] => (false, t)

@[simp] theorem takeSign_append (hc : IsSeam c) (t more : Text) :
    takeSign (t ++ c :: more) = ((takeSign t).1, (takeSign t).2 ++ c :: more) := by
  cases t with
  | nil =>
    show (if c = '-'.toNat then _ else if c = '+'.toNat then _ else _) = _
    rw [if_neg hc.sign.1, if_neg hc.sign.2]
    rfl
  | cons sign t =>
    rw [List.cons_append, takeSign, takeSign]
    split
    · rfl
    · split <;> rfl

theorem takeSign_length (t : Text) : (takeSign t).2.length ≤ t.length := by
  cases t with
  | nil => exact Nat.le_refl _
  | cons sign t =>
    rw [takeSign]
    split
    · exact Nat.le_succ _
    · split
      · exact Nat.le_succ _
      · exact Nat.le_refl _

theorem takeExponent_cons (digit? : CodePoint → Option Nat) (mark : CodePoint) (t : Text) :
    Numeral.takeExponent digit? (mark :: t) =
      if mark = 'e'.toNat || mark = 'E'.toNat then
        match Numeral.takeDigits digit? (takeSign t).2 with
        | ([], _) => (none, mark :: t)
        | (digits, rest) =>
          (some (if (takeSign t).1 then -(Text.ofDigits 10 digits : Int)
            else Text.ofDigits 10 digits), rest)
      else (none, mark :: t) := by
  unfold Numeral.takeExponent takeSign
  cases t with
  | nil => rfl
  | cons sign t => rfl

@[simp] theorem takeExponent_append (hc : IsSeam c) (t more : Text) :
    Numeral.takeExponent Text.decimalDigit? (t ++ c :: more) =
      ((Numeral.takeExponent Text.decimalDigit? t).1,
        (Numeral.takeExponent Text.decimalDigit? t).2 ++ c :: more) := by
  cases t with
  | nil =>
    have hmark : (decide (c = 'e'.toNat) || decide (c = 'E'.toNat)) = false := by
      rw [decide_eq_false hc.mark.1, decide_eq_false hc.mark.2]
      rfl
    rw [List.nil_append, takeExponent_cons, hmark]
    rfl
  | cons mark t =>
    rw [List.cons_append, takeExponent_cons, takeExponent_cons, takeSign_append hc,
      takeDigits_append hc]
    split
    · rcases hd : Numeral.takeDigits Text.decimalDigit? (takeSign t).2 with ⟨_ | ⟨d, ds⟩, rest⟩
      · rfl
      · rfl
    · rfl

theorem takeExponent_length (digit? : CodePoint → Option Nat) (t : Text) :
    (Numeral.takeExponent digit? t).2.length ≤ t.length := by
  cases t with
  | nil => exact Nat.le_refl _
  | cons mark t =>
    rw [takeExponent_cons]
    split
    · have hsign := takeSign_length t
      have hdigits := takeDigits_length digit? (takeSign t).2
      rcases hd : Numeral.takeDigits digit? (takeSign t).2 with ⟨_ | ⟨d, ds⟩, rest⟩
      · exact Nat.le_refl _
      · rw [hd] at hdigits
        simp only [List.length_cons] at hdigits ⊢
        omega
    · exact Nat.le_refl _

/-- The fraction at the front of a text, and the rest. -/
def takeFraction (digit? : CodePoint → Option Nat) (t : Text) : Option (List Nat) × Text :=
  match t with
  | point :: more =>
    if point = '.'.toNat then
      (some (Numeral.takeDigits digit? more).1, (Numeral.takeDigits digit? more).2)
    else (none, t)
  | [] => (none, [])

@[simp] theorem takeFraction_append (hc : IsSeam c) (t more : Text) :
    takeFraction Text.decimalDigit? (t ++ c :: more) =
      ((takeFraction Text.decimalDigit? t).1,
        (takeFraction Text.decimalDigit? t).2 ++ c :: more) := by
  cases t with
  | nil =>
    show (if c = '.'.toNat then _ else _) = _
    rw [if_neg hc.point]
    rfl
  | cons point t =>
    rw [List.cons_append, takeFraction, takeFraction, takeDigits_append hc]
    split <;> rfl

theorem takeFraction_length (digit? : CodePoint → Option Nat) (t : Text) :
    ((takeFraction digit? t).1.getD []).length + (takeFraction digit? t).2.length ≤ t.length := by
  cases t with
  | nil => exact Nat.le_refl _
  | cons point t =>
    rw [takeFraction]
    split
    · have hdigits := takeDigits_length digit? t
      show (Numeral.takeDigits digit? t).1.length + (Numeral.takeDigits digit? t).2.length ≤
        t.length + 1
      omega
    · show 0 + (t.length + 1) ≤ t.length + 1
      omega

/-- A numeral has digits before its point, or at least behind it. -/
theorem scan?_eq (digit? : CodePoint → Option Nat) (t : Text) :
    Numeral.scan? digit? t =
      let (whole, rest) := Numeral.takeDigits digit? t
      let (fraction, rest) := takeFraction digit? rest
      let (exponent, rest) := Numeral.takeExponent digit? rest
      if whole.isEmpty && (fraction.getD []).isEmpty then none
      else some (⟨whole, fraction, exponent⟩, rest) := by
  unfold Numeral.scan? takeFraction
  rcases Numeral.takeDigits digit? t with ⟨_ | ⟨d, ds⟩, _ | ⟨point, rest⟩⟩
  · rfl
  · dsimp only
    split
    · rcases Numeral.takeDigits digit? rest with ⟨_ | ⟨d, ds⟩, rest⟩
      · rfl
      · rfl
    · rfl
  · rfl
  · dsimp only
    split <;> rfl

@[simp] theorem scan?_append (hc : IsSeam c) (t more : Text) :
    Numeral.scan? Text.decimalDigit? (t ++ c :: more) =
      (Numeral.scan? Text.decimalDigit? t).map fun found => (found.1, found.2 ++ c :: more) := by
  rw [scan?_eq, scan?_eq, takeDigits_append hc]
  dsimp only
  rw [takeFraction_append hc]
  dsimp only
  rw [takeExponent_append hc]
  split <;> rfl

theorem scan?_length {digit? : CodePoint → Option Nat} {numeral : Numeral}
    (h : Numeral.scan? digit? t = some (numeral, rest)) : rest.length < t.length := by
  rw [scan?_eq] at h
  dsimp only at h
  split at h
  · cases h
  · next hsome =>
    cases h
    have hwhole := takeDigits_length digit? t
    have hfraction := takeFraction_length digit? (Numeral.takeDigits digit? t).2
    have hexponent := takeExponent_length digit?
      (takeFraction digit? (Numeral.takeDigits digit? t).2).2
    -- One of the two rows of digits is not empty.
    rw [Bool.and_eq_true, List.isEmpty_iff, List.isEmpty_iff, ← List.length_eq_zero_iff,
      ← List.length_eq_zero_iff] at hsome
    omega

/-! ## Quoted texts and names -/

/-- A quoted body ends with its closing quote, whatever follows. -/
theorem quotedBody?_taken {quote : CodePoint} {body : Text}
    (h : quotedBody? quote t = some (body, rest)) :
    ∃ taken, t = taken ++ rest ∧ taken ≠ [] ∧
      ∀ more, quotedBody? quote (taken ++ more) = some (body, more) := by
  induction t using quotedBody?.induct quote generalizing body rest with
  | case1 => cases h
  | case2 t =>
    rw [quotedBody?.eq_def] at h
    simp only [if_true] at h
    cases h
    refine ⟨[quote], rfl, List.cons_ne_nil _ _, fun more => ?_⟩
    rw [quotedBody?.eq_def]
    exact if_pos rfl
  | case3 hq =>
    rw [quotedBody?.eq_def] at h
    simp only [if_neg hq, if_true] at h
    cases h
  | case4 t hq =>
    rw [quotedBody?.eq_def] at h
    simp only [if_neg hq, if_true] at h
    cases h
  | case5 e t hq he ih =>
    rw [quotedBody?.eq_def] at h
    simp only [if_neg hq, if_neg he, if_true] at h
    obtain ⟨⟨body', rest'⟩, hbody, hmap⟩ := Option.map_eq_some_iff.1 h
    cases hmap
    obtain ⟨taken, rfl, -, hsame⟩ := ih hbody
    refine ⟨'\\'.toNat :: e :: taken, rfl, List.cons_ne_nil _ _, fun more => ?_⟩
    rw [quotedBody?.eq_def]
    simp only [List.cons_append, if_neg hq, if_neg he, if_true, hsame more]
    rfl
  | case6 d t hq hd ih =>
    rw [quotedBody?.eq_def] at h
    simp only [if_neg hq, if_neg hd] at h
    obtain ⟨⟨body', rest'⟩, hbody, hmap⟩ := Option.map_eq_some_iff.1 h
    cases hmap
    obtain ⟨taken, rfl, -, hsame⟩ := ih hbody
    refine ⟨d :: taken, rfl, List.cons_ne_nil _ _, fun more => ?_⟩
    rw [quotedBody?.eq_def]
    simp only [List.cons_append, if_neg hq, if_neg hd, hsame more]
    rfl

@[simp] theorem takeWhile_seam (hc : IsSeam c) (t more : Text) :
    (t ++ c :: more).takeWhile isNamePart = t.takeWhile isNamePart := by
  induction t with
  | nil => exact List.takeWhile_cons_of_neg (by rw [hc.name]; exact Bool.false_ne_true)
  | cons d t ih =>
    rw [List.cons_append, List.takeWhile_cons, List.takeWhile_cons, ih]

@[simp] theorem dropWhile_seam (hc : IsSeam c) (t more : Text) :
    (t ++ c :: more).dropWhile isNamePart = t.dropWhile isNamePart ++ c :: more := by
  induction t with
  | nil => exact List.dropWhile_cons_of_neg (by rw [hc.name]; exact Bool.false_ne_true)
  | cons d t ih =>
    rw [List.cons_append, List.dropWhile_cons, List.dropWhile_cons, ih]
    split <;> rfl

/-! ## Tokens -/

theorem next?_append (hc : IsSeam c) (h : next? t = some (k, rest)) (more : Text) :
    next? (t ++ c :: more) = some (k, rest ++ c :: more) := by
  have ht : t ≠ [] := by
    rintro rfl
    cases h
  have hdots : c ∉ ("..." : Text) := by
    intro hmem
    have hmem' : c ∈ [46, 46, 46] := hmem
    have hpoint : c = 46 := by simpa using hmem'
    exact hc.point hpoint
  have hspread := behind?_append hdots t more
  unfold next? at h ⊢
  rw [hspread, scan?_append hc, symbol?_append hc ht]
  cases hb : behind? "..." t with
  | some after =>
    rw [hb] at h
    cases h
    rfl
  | none =>
    rw [hb] at h
    cases hs : Numeral.scan? Text.decimalDigit? t with
    | some found =>
      rw [hs] at h
      cases h
      rfl
    | none =>
      rw [hs] at h
      cases hy : symbol? t with
      | some found =>
        rw [hy] at h
        cases h
        rfl
      | none =>
        rw [hy] at h
        cases t with
        | nil => cases h
        | cons d t =>
          dsimp only [Option.map_none, List.cons_append] at h ⊢
          split at h
          · next hquote =>
            rw [if_pos hquote]
            obtain ⟨⟨body, after⟩, hbody, hmap⟩ := Option.map_eq_some_iff.1 h
            cases hmap
            obtain ⟨taken, rfl, -, hsame⟩ := quotedBody?_taken hbody
            rw [List.append_assoc, hsame]
            rfl
          · next hquote =>
            rw [if_neg hquote]
            split at h
            · next hstart =>
              cases h
              rw [if_pos hstart, ← List.cons_append, takeWhile_seam hc, dropWhile_seam hc]
            · cases h

theorem word_ne_finish (t : Text) : word t ≠ .finish := by
  unfold word
  split
  · exact fun h => by cases h
  · split
    · exact fun h => by cases h
    · split
      · exact fun h => by cases h
      · split <;> exact fun h => by cases h

theorem next?_shortens (h : next? t = some (k, rest)) : Shortens k t rest := by
  unfold next? at h
  cases hb : behind? "..." t with
  | some after =>
    rw [hb] at h
    cases h
    have hlen := behind?_length hb
    have hdots : List.length ("..." : Text) = 3 := rfl
    exact ⟨by omega, fun he => by cases he⟩
  | none =>
    rw [hb] at h
    cases hs : Numeral.scan? Text.decimalDigit? t with
    | some found =>
      rw [hs] at h
      cases h
      exact ⟨scan?_length hs, fun he => by cases he⟩
    | none =>
      rw [hs] at h
      cases hy : symbol? t with
      | some found =>
        rw [hy] at h
        cases h
        exact symbol?_shortens hy
      | none =>
        rw [hy] at h
        cases t with
        | nil => cases h
        | cons d t =>
          dsimp only at h
          split at h
          · obtain ⟨⟨body, after⟩, hbody, hmap⟩ := Option.map_eq_some_iff.1 h
            cases hmap
            obtain ⟨taken, rfl, -, -⟩ := quotedBody?_taken hbody
            refine ⟨?_, fun he => by cases he⟩
            simp only [List.length_cons, List.length_append]
            omega
          · split at h
            · next hstart =>
              cases h
              have hname : isNamePart d = true := by
                unfold isNamePart
                rw [hstart]
                rfl
              refine ⟨?_, word_ne_finish _⟩
              rw [List.dropWhile_cons_of_pos hname, List.length_cons]
              have hlen := (List.dropWhile_suffix (l := t) isNamePart).length_le
              omega
            · cases h

/-! ## Sources -/

/-- The kinds of the tokens of a text, without the end. -/
inductive Reads : Text → List TokenKind → Prop where
  | nil : Reads [] []
  | blank {c : CodePoint} {t : Text} {row : List TokenKind} :
    Text.isBlank c = true → Reads t row → Reads (c :: t) row
  | token {c : CodePoint} {t rest : Text} {k : TokenKind} {row : List TokenKind} :
    Text.isBlank c = false → next? (c :: t) = some (k, rest) → Reads rest row →
      Reads (c :: t) (k :: row)

namespace Reads

variable {row row' : List TokenKind}

/-- A text up to a seam is read as it is alone. -/
theorem append (hc : IsSeam c) (h : Reads t row) (h' : Reads (c :: more) row') :
    Reads (t ++ c :: more) (row ++ row') := by
  induction h with
  | nil => exact h'
  | blank hblank _ ih => exact .blank hblank ih
  | token hvisible hnext _ ih => exact .token hvisible (next?_append hc hnext more) ih

theorem finish_not_mem (h : Reads t row) : TokenKind.finish ∉ row := by
  induction h with
  | nil => exact List.not_mem_nil
  | blank _ _ ih => exact ih
  | token _ hnext _ ih =>
    rw [List.mem_cons, not_or]
    exact ⟨Ne.symm (next?_shortens hnext).ne_finish, ih⟩

/-- The steps that a text needs are no more than its code points. -/
theorem ofTokensFrom {fuel position : Nat} {tokens : List Token} (hfuel : t.length ≤ fuel)
    (h : tokensFrom fuel position t = .ok tokens) :
    ∃ row, Reads t row ∧ kinds tokens = row ++ [.finish] := by
  induction fuel generalizing t position tokens with
  | zero =>
    have hnil : t = [] := List.length_eq_zero_iff.1 (by omega)
    subst hnil
    cases h
    exact ⟨[], .nil, rfl⟩
  | succ fuel ih =>
    cases t with
    | nil =>
      cases h
      exact ⟨[], .nil, rfl⟩
    | cons c t =>
      rw [List.length_cons] at hfuel
      rw [tokensFrom] at h
      split at h
      · next hblank =>
        obtain ⟨row, hrow, hkinds⟩ := ih (by omega) h
        exact ⟨row, .blank hblank hrow, hkinds⟩
      · next hvisible =>
        cases hnext : next? (c :: t) with
        | none =>
          rw [hnext] at h
          cases h
        | some found =>
          rw [hnext] at h
          dsimp only at h
          obtain ⟨others, hothers, hcons⟩ := Except.bind_eq_ok.1 h
          cases hcons
          have hlen := (next?_shortens hnext).length_lt
          rw [List.length_cons] at hlen
          obtain ⟨row, hrow, hkinds⟩ := ih (by omega) hothers
          refine ⟨found.1 :: row, .token (by simpa using hvisible) hnext hrow, ?_⟩
          show found.1 :: kinds others = found.1 :: (row ++ [.finish])
          rw [hkinds]

theorem tokensFrom (h : Reads t row) {fuel : Nat} (hfuel : t.length ≤ fuel) (position : Nat) :
    ∃ tokens, tokensFrom fuel position t = .ok tokens ∧ kinds tokens = row ++ [.finish] := by
  induction h generalizing fuel position with
  | nil => cases fuel <;> exact ⟨_, rfl, rfl⟩
  | blank hblank _ ih =>
    rw [List.length_cons] at hfuel
    obtain ⟨m, rfl⟩ : ∃ m, fuel = m + 1 := ⟨fuel - 1, by omega⟩
    obtain ⟨tokens, htokens, hkinds⟩ := @ih m (by omega) (position + 1)
    refine ⟨tokens, ?_, hkinds⟩
    rw [Lexer.tokensFrom, if_pos hblank]
    exact htokens
  | @token c t rest k row hvisible hnext _ ih =>
    have hlen := (next?_shortens hnext).length_lt
    rw [List.length_cons] at hfuel hlen
    obtain ⟨m, rfl⟩ : ∃ m, fuel = m + 1 := ⟨fuel - 1, by omega⟩
    obtain ⟨tokens, htokens, hkinds⟩ :=
      @ih m (by omega) (position + ((c :: t).length - rest.length))
    refine ⟨⟨k, position⟩ :: tokens, ?_, ?_⟩
    · rw [Lexer.tokensFrom, if_neg (by rw [hvisible]; exact Bool.false_ne_true), hnext]
      dsimp only
      rw [htokens]
      rfl
    · show k :: kinds tokens = k :: (row ++ [.finish])
      rw [hkinds]

end Reads

end SceneTemplates.Lexer

namespace SceneTemplates

variable {source : Text} {row : List TokenKind}

/-- A source has tokens exactly if it can be read, and their kinds are what is read. -/
theorem exists_reads {tokens : List Token} (h : tokenize source = .ok tokens) :
    ∃ row, Lexer.Reads source row ∧ kinds tokens = row ++ [.finish] :=
  Lexer.Reads.ofTokensFrom (Nat.le_refl _) h

theorem exists_tokens (h : Lexer.Reads source row) :
    ∃ tokens, tokenize source = .ok tokens ∧ kinds tokens = row ++ [.finish] :=
  h.tokensFrom (Nat.le_refl _) 0

end SceneTemplates
