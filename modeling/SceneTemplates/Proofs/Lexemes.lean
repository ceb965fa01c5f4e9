import SceneTemplates.Proofs.WrittenNumerals

/-!
# Lexemes

What can be written for a token, said apart from the scanner: the spelling of a symbol, a numeral,
a quoted text, a word. At each position the scanner takes the longest of all lexemes that stand
there. So a source is cut into lexemes with blanks between them, up to its end or up to the first
place where neither a blank nor a lexeme stands.
-/
namespace SceneTemplates

namespace Lexer

/-- What can stand between quotes: neither the quote nor a backslash alone, and behind a backslash
anything but a line feed. -/
inductive QuotedBody (quote : CodePoint) : Text → Prop
  | nil : QuotedBody quote []
  | plain {c : CodePoint} {t : Text} (hquote : c ≠ quote) (hescape : c ≠ '\\'.toNat)
    (h : QuotedBody quote t) : QuotedBody quote (c :: t)
  | escape {c : CodePoint} {t : Text} (hc : c ≠ '\n'.toNat) (h : QuotedBody quote t) :
    QuotedBody quote ('\\'.toNat :: c :: t)

/-- Whether a code point opens and closes a quoted text. -/
def IsQuote (c : CodePoint) : Prop := c = '"'.toNat ∨ c = '\''.toNat

instance (c : CodePoint) : Decidable (IsQuote c) := inferInstanceAs (Decidable (_ ∨ _))

/-- What can be written for a token. -/
inductive Spells : TokenKind → Text → Prop
  | symbol {s : Symbol} (h : s ∈ Symbol.all) : Spells (.symbol s) s.spelling
  | number {n : Numeral} {t : Text} (h : n.Writes Text.decimalDigit? t) :
    Spells (.number (Number.ofNumeral false n)) t
  | text {quote : CodePoint} {body : Text} (hquote : IsQuote quote) (h : QuotedBody quote body) :
    Spells (.text (unescape body)) (quote :: (body ++ [quote]))
  | word {c : CodePoint} {t : Text} (hstart : isNameStart c = true)
    (h : ∀ d ∈ t, isNamePart d = true) : Spells (word (c :: t)) (c :: t)

variable {c quote : CodePoint} {t body rest more : Text} {k : TokenKind} {s : Symbol}

/-! ## Symbols -/

@[simp] theorem behind?_eq_some {beginning : Text} :
    behind? beginning t = some rest ↔ t = beginning ++ rest := by
  induction beginning generalizing t with
  | nil => simp
  | cons a beginning ih =>
    cases t with
    | nil => simp [behind?]
    | cons d t =>
      rw [behind?_cons]
      by_cases h : a = d
      · simp [h, ih]
      · simp [h, Ne.symm h]

theorem spelled_of_symbol? (h : symbol? t = some (s, rest)) :
    s ∈ Symbol.all ∧ t = Text.ofString s.spelling ++ rest := by
  obtain ⟨s', hs', hfound⟩ := List.exists_of_findSome?_eq_some h
  obtain ⟨rest', hbehind, hsame⟩ := Option.map_eq_some_iff.1 hfound
  cases hsame
  exact ⟨hs', behind?_eq_some.1 hbehind⟩

/-- In a table that lists the longer spellings first, the first one that fits is the longest. -/
theorem findSome?_longest {table : List Symbol}
    (hsorted : table.Pairwise fun a b =>
      (Text.ofString b.spelling).length ≤ (Text.ofString a.spelling).length)
    (hs : s ∈ table) (h : Text.ofString s.spelling <+: t) :
    ∃ s' rest,
      (table.findSome? fun s => (behind? s.spelling t).map fun rest => (s, rest)) =
        some (s', rest) ∧ (Text.ofString s.spelling).length + rest.length ≤ t.length := by
  induction table with
  | nil => simp at hs
  | cons a table ih =>
    obtain ⟨hfirst, hsorted⟩ := List.pairwise_cons.1 hsorted
    rw [List.findSome?_cons]
    cases hbehind : behind? (Text.ofString a.spelling) t with
    | some rest =>
      have hlength := behind?_length hbehind
      have hle : (Text.ofString s.spelling).length ≤ (Text.ofString a.spelling).length := by
        obtain rfl | hs := List.mem_cons.1 hs
        · exact Nat.le_refl _
        · exact hfirst s hs
      exact ⟨a, rest, rfl, by omega⟩
    | none =>
      obtain rfl | hs := List.mem_cons.1 hs
      · obtain ⟨rest, hrest⟩ := h
        rw [behind?_eq_some.2 hrest.symm] at hbehind
        cases hbehind
      · exact ih hsorted hs

theorem all_sorted : Symbol.all.Pairwise fun a b =>
    (Text.ofString b.spelling).length ≤ (Text.ofString a.spelling).length := by
  decide

theorem exists_symbol? (hs : s ∈ Symbol.all) (h : Text.ofString s.spelling <+: t) :
    ∃ s' rest, symbol? t = some (s', rest) ∧
      (Text.ofString s.spelling).length + rest.length ≤ t.length :=
  findSome?_longest all_sorted hs h

/-- No symbol begins as a number, a quoted text or a word does, but for the point. -/
theorem spelling_head : ∀ s ∈ Symbol.all, ∀ c ∈ (Text.ofString s.spelling).head?,
    Text.decimalDigit? c = none ∧ ¬ IsQuote c ∧ isNameStart c = false := by
  decide

theorem spelling_point : ∀ s ∈ Symbol.all, '.'.toNat ∈ (Text.ofString s.spelling).head? →
    Text.ofString s.spelling = "..." ∨ (Text.ofString s.spelling).length = 1 := by
  decide

/-- The first code point of a symbol is the first of a text that begins with it. -/
theorem mem_head?_of_append (hs : s ∈ Symbol.all) (h : Text.ofString s.spelling ++ more = c :: t) :
    c ∈ (Text.ofString s.spelling).head? := by
  obtain ⟨d, spelling, heq⟩ := List.exists_cons_of_ne_nil (spelling_ne_nil s hs)
  rw [heq, List.cons_append] at h
  simp [heq, (List.cons.inj h).1]

@[simp]
theorem symbol?_eq_none (h : IsQuote c ∨ isNameStart c = true) : symbol? (c :: t) = none := by
  by_contra hsome
  obtain ⟨⟨s, rest⟩, hs⟩ := Option.ne_none_iff_exists'.1 hsome
  obtain ⟨hmem, heq⟩ := spelled_of_symbol? hs
  have hhead := spelling_head s hmem c (mem_head?_of_append hmem heq.symm)
  exact h.elim hhead.2.1 (by simp [hhead.2.2])

/-! ## Numbers -/

theorem scan?_head {n : Numeral} (h : Numeral.scan? Text.decimalDigit? (c :: t) = some (n, rest)) :
    Text.decimalDigit? c ≠ none ∨ c = '.'.toNat := by
  by_contra hneither
  simp only [not_or, not_not] at hneither
  have hpoint : c ≠ 46 := hneither.2
  rw [scan?_eq, Numeral.takeDigits_cons_none hneither.1] at h
  simp [takeFraction, hpoint] at h

theorem scan?_spread : Numeral.scan? Text.decimalDigit? ("..." ++ t) = none := by
  rfl

/-! ## Quoted texts -/

@[simp] theorem quotedBody?_quote : quotedBody? quote (quote :: t) = some ([], t) := by
  simp [quotedBody?.eq_def]

theorem quotedBody?_plain (hquote : c ≠ quote) (hescape : c ≠ '\\'.toNat) :
    quotedBody? quote (c :: t) =
      (quotedBody? quote t).map fun (body, after) => (c :: body, after) := by
  rw [quotedBody?.eq_def]
  simp only [if_neg hquote, if_neg hescape]

theorem quotedBody?_escape (hquote : IsQuote quote) (hc : c ≠ '\n'.toNat) :
    quotedBody? quote ('\\'.toNat :: c :: t) =
      (quotedBody? quote t).map fun (body, after) => ('\\'.toNat :: c :: body, after) := by
  have hne : '\\'.toNat ≠ quote := by
    rintro rfl
    exact absurd hquote (by decide)
  rw [quotedBody?.eq_def]
  simp only [if_neg hne, if_neg hc, if_true]

theorem quotedBody_of_quotedBody? (h : quotedBody? quote t = some (body, rest)) :
    t = body ++ quote :: rest ∧ QuotedBody quote body := by
  induction t using quotedBody?.induct quote generalizing body with
  | case1 => simp [quotedBody?] at h
  | case2 t =>
    rw [quotedBody?_quote] at h
    obtain ⟨rfl, rfl⟩ : [] = body ∧ t = rest := by simpa using h
    exact ⟨rfl, .nil⟩
  | case3 hquote =>
    rw [quotedBody?.eq_def] at h
    simp only [if_neg hquote, if_true, reduceCtorEq] at h
  | case4 t hquote =>
    rw [quotedBody?.eq_def] at h
    simp only [if_neg hquote, if_true, reduceCtorEq] at h
  | case5 c t hc hquote ih =>
    rw [quotedBody?.eq_def] at h
    simp only [if_neg hquote, if_neg hc, if_true] at h
    obtain ⟨⟨inner, after⟩, hinner, heq⟩ := Option.map_eq_some_iff.1 h
    obtain ⟨rfl, rfl⟩ : '\\'.toNat :: c :: inner = body ∧ after = rest := by simpa using heq
    obtain ⟨rfl, hbody⟩ := ih hinner
    exact ⟨rfl, .escape hc hbody⟩
  | case6 c t hquote hescape ih =>
    rw [quotedBody?_plain hquote hescape] at h
    obtain ⟨⟨inner, after⟩, hinner, heq⟩ := Option.map_eq_some_iff.1 h
    obtain ⟨rfl, rfl⟩ : c :: inner = body ∧ after = rest := by simpa using heq
    obtain ⟨rfl, hbody⟩ := ih hinner
    exact ⟨rfl, .plain hquote hescape hbody⟩

theorem quotedBody?_of_quotedBody (hquote : IsQuote quote) (h : QuotedBody quote body)
    (rest : Text) : quotedBody? quote (body ++ quote :: rest) = some (body, rest) := by
  induction h with
  | nil => exact quotedBody?_quote
  | plain hne hescape _ ih =>
    rw [List.cons_append, quotedBody?_plain hne hescape, ih]
    rfl
  | escape hc _ ih =>
    rw [List.cons_append, List.cons_append, quotedBody?_escape hquote hc, ih]
    rfl

/-! ## Words -/

theorem isNameStart_facts : ∀ c < 123, isNameStart c = true →
    Text.decimalDigit? c = none ∧ c ≠ '.'.toNat ∧ ¬ IsQuote c ∧ Text.isBlank c = false := by
  decide +kernel

theorem isNameStart_lt (h : isNameStart c = true) : c < 123 := by
  have hunderscore : '_'.toNat = 95 := rfl
  have hdollar : '$'.toNat = 36 := rfl
  simp only [isNameStart, CodePoint, Bool.or_eq_true, Bool.and_eq_true, decide_eq_true_eq,
    hunderscore, hdollar] at h ⊢
  omega

/-! ## The token at the front of a text -/

/-- A quoted text or a word is no number and no symbol. -/
theorem next?_cons (h : IsQuote c ∨ isNameStart c = true) :
    next? (c :: t) =
      if c = '"'.toNat || c = '\''.toNat then
        (quotedBody? c t).map fun (body, after) => (.text (unescape body), after)
      else some (word ((c :: t).takeWhile isNamePart), (c :: t).dropWhile isNamePart) := by
  have hfacts : Text.decimalDigit? c = none ∧ c ≠ '.'.toNat := by
    rcases h with (rfl | rfl) | h
    · decide
    · decide
    · have := isNameStart_facts c (isNameStart_lt h) h
      exact ⟨this.1, this.2.1⟩
  have hspread : behind? "..." (c :: t) = none := by
    show behind? ('.'.toNat :: _) (c :: t) = none
    rw [behind?_cons, if_neg (Ne.symm hfacts.2)]
  have hnumber : Numeral.scan? Text.decimalDigit? (c :: t) = none := by
    by_contra hsome
    obtain ⟨⟨n, rest⟩, hn⟩ := Option.ne_none_iff_exists'.1 hsome
    exact (scan?_head hn).elim (· hfacts.1) hfacts.2
  unfold next?
  rw [hspread, hnumber, symbol?_eq_none h]
  dsimp only
  split
  · rfl
  · next hquote =>
    have hstart : isNameStart c = true := h.resolve_left (by simpa [IsQuote] using hquote)
    rw [if_pos hstart]

theorem spells_takeWhile (hstart : isNameStart c = true) :
    Spells (word ((c :: t).takeWhile isNamePart)) ((c :: t).takeWhile isNamePart) := by
  have hpart : isNamePart c = true := by
    simp [isNamePart, hstart]
  rw [List.takeWhile_cons_of_pos hpart]
  exact .word hstart (List.all_eq_true.1 List.all_takeWhile)

/-- What is taken is a lexeme of the token. -/
theorem spells_of_next? (h : next? t = some (k, rest)) :
    ∃ lexeme, t = lexeme ++ rest ∧ Spells k lexeme := by
  unfold next? at h
  cases hspread : behind? "..." t with
  | some after =>
    rw [hspread] at h
    cases h
    exact ⟨_, behind?_eq_some.1 hspread, .symbol (s := .spread) (by decide)⟩
  | none =>
    rw [hspread] at h
    cases hnumber : Numeral.scan? Text.decimalDigit? t with
    | some found =>
      rw [hnumber] at h
      cases h
      obtain ⟨w, hw, hwrites⟩ := Numeral.written_of_scan? hnumber
      exact ⟨w, hw, .number hwrites⟩
    | none =>
      rw [hnumber] at h
      cases hsymbol : symbol? t with
      | some found =>
        rw [hsymbol] at h
        cases h
        obtain ⟨hmem, heq⟩ := spelled_of_symbol? hsymbol
        exact ⟨_, heq, .symbol hmem⟩
      | none =>
        rw [hsymbol] at h
        cases t with
        | nil => cases h
        | cons c t =>
          dsimp only at h
          split at h
          · next hquote =>
            obtain ⟨⟨body, after⟩, hbody, heq⟩ := Option.map_eq_some_iff.1 h
            cases heq
            obtain ⟨rfl, hquoted⟩ := quotedBody_of_quotedBody? hbody
            exact ⟨c :: (body ++ [c]), by simp, .text (by simpa [IsQuote] using hquote) hquoted⟩
          · split at h
            · next hstart =>
              cases h
              exact ⟨_, List.takeWhile_append_dropWhile.symm, spells_takeWhile hstart⟩
            · cases h

theorem scan?_eq_none_of_behind? (h : behind? "..." t = some rest) :
    Numeral.scan? Text.decimalDigit? t = none := by
  rw [behind?_eq_some.1 h]
  exact scan?_spread

theorem next?_of_scan? {n : Numeral} (h : Numeral.scan? Text.decimalDigit? t = some (n, rest)) :
    next? t = some (.number (Number.ofNumeral false n), rest) := by
  have hspread : behind? "..." t = none := by
    by_contra hsome
    obtain ⟨after, hafter⟩ := Option.ne_none_iff_exists'.1 hsome
    rw [scan?_eq_none_of_behind? hafter] at h
    cases h
  unfold next?
  rw [hspread, h]

theorem next?_of_quotedBody (hquote : IsQuote quote) (h : QuotedBody quote body) (more : Text) :
    next? (quote :: (body ++ quote :: more)) = some (.text (unescape body), more) := by
  have hcondition : (quote = '"'.toNat || quote = '\''.toNat) = true := by
    simpa [IsQuote] using hquote
  rw [next?_cons (.inl hquote), if_pos hcondition, quotedBody?_of_quotedBody hquote h]
  rfl

/-- A symbol that begins as a numeral does is a point, alone or in the spread. -/
theorem spelling_of_scan? {n : Numeral} (hs : s ∈ Symbol.all)
    (h : Numeral.scan? Text.decimalDigit? (s.spelling ++ more) = some (n, rest)) :
    Text.ofString s.spelling = "..." ∨ (Text.ofString s.spelling).length = 1 := by
  obtain ⟨c, t, ht⟩ := List.exists_cons_of_ne_nil
    (List.append_ne_nil_of_left_ne_nil (spelling_ne_nil s hs) more)
  have hhead := mem_head?_of_append hs ht
  change Numeral.scan? Text.decimalDigit? (Text.ofString s.spelling ++ more) = _ at h
  rw [ht] at h
  rcases scan?_head h with hdigit | rfl
  · exact absurd (spelling_head s hs c hhead).1 hdigit
  · exact spelling_point s hs hhead

theorem next?_of_symbol (hs : s ∈ Symbol.all) (more : Text) :
    ∃ k rest, next? (s.spelling ++ more) = some (k, rest) ∧ rest.length ≤ more.length := by
  have hlength : (s.spelling ++ more).length = (Text.ofString s.spelling).length + more.length :=
    List.length_append
  unfold next?
  cases hspread : behind? "..." (s.spelling ++ more) with
  | some rest =>
    have hrest := behind?_length hspread
    have hthree : (Text.ofString "...").length = 3 := rfl
    refine ⟨_, rest, rfl, ?_⟩
    rcases spelling_point s hs
        (mem_head?_of_append hs (behind?_eq_some.1 hspread)) with heq | hone
    · have := congrArg List.length heq
      omega
    · omega
  | none =>
    cases hnumber : Numeral.scan? Text.decimalDigit? (s.spelling ++ more) with
    | some found =>
      refine ⟨_, found.2, rfl, ?_⟩
      have hshorter := scan?_length hnumber
      -- A symbol at which a numeral begins is a point.
      rcases spelling_of_scan? hs hnumber with heq | hone
      · rw [heq] at hspread
        rw [behind?_eq_some.2 rfl] at hspread
        cases hspread
      · omega
    | none =>
      obtain ⟨s', rest, hsymbol, hle⟩ := exists_symbol? hs (List.prefix_append _ more)
      refine ⟨.symbol s', rest, ?_, by omega⟩
      dsimp only
      rw [hsymbol]

/-- Whatever lexeme stands at the front of a text, one at least as long is taken. -/
theorem next?_of_spells {lexeme : Text} (h : Spells k lexeme) (more : Text) :
    ∃ k' rest, next? (lexeme ++ more) = some (k', rest) ∧ rest.length ≤ more.length := by
  cases h with
  | symbol hs => exact next?_of_symbol hs more
  | number hn =>
    obtain ⟨n, rest, hscan, hle⟩ := Numeral.exists_scan? Numeral.isDigitClass_decimalDigit? hn more
    exact ⟨.number (Number.ofNumeral false n), rest, next?_of_scan? hscan, hle⟩
  | @text quote body hquote hbody =>
    refine ⟨.text (unescape body), more, ?_, Nat.le_refl _⟩
    rw [List.cons_append, List.append_assoc, List.singleton_append,
      next?_of_quotedBody hquote hbody]
  | @word c t hstart hparts =>
    have hquote := (isNameStart_facts c (isNameStart_lt hstart) hstart).2.2.1
    have hpart : ∀ d ∈ c :: t, isNamePart d = true := by
      simpa [isNamePart, hstart] using hparts
    refine ⟨word ((c :: t ++ more).takeWhile isNamePart), more.dropWhile isNamePart, ?_,
      (List.dropWhile_suffix isNamePart).length_le⟩
    rw [List.cons_append, next?_cons (.inr hstart), if_neg (by simpa [IsQuote] using hquote),
      ← List.cons_append, List.dropWhile_append_of_pos hpart]

/-- The longest lexeme at the front of a text, and the token that it is written for. -/
structure IsLongest (k : TokenKind) (lexeme t : Text) : Prop where
  spells : Spells k lexeme
  stands : lexeme <+: t
  longest : ∀ k' lexeme', Spells k' lexeme' → lexeme' <+: t → lexeme'.length ≤ lexeme.length

theorem isLongest_of_next? (h : next? t = some (k, rest)) :
    ∃ lexeme, t = lexeme ++ rest ∧ IsLongest k lexeme t := by
  obtain ⟨lexeme, rfl, hspells⟩ := spells_of_next? h
  refine ⟨lexeme, rfl, hspells, List.prefix_append _ _, ?_⟩
  rintro k' lexeme' hspells' ⟨more, hmore⟩
  obtain ⟨k'', rest', hnext, hle⟩ := next?_of_spells hspells' more
  rw [hmore, h] at hnext
  cases hnext
  have hlength := congrArg List.length hmore
  simp only [List.length_append] at hlength
  omega

theorem not_stands_of_next? (h : next? t = none) {lexeme : Text} (hspells : Spells k lexeme) :
    ¬ lexeme <+: t := by
  rintro ⟨more, rfl⟩
  obtain ⟨k', rest, hnext, -⟩ := next?_of_spells hspells more
  rw [h] at hnext
  cases hnext

/-! ## Symbols and numbers among the lexemes -/

/-- A word can be a member name, whatever its token is. -/
@[simp] theorem memberName?_word (t : Text) : (word t).memberName? = some t := by
  unfold word
  split
  · next h => rw [h]; rfl
  · split
    · next h => rw [h]; rfl
    · split
      · next h => rw [h]; rfl
      · split
        · next k hk =>
          have : t = Text.ofString k.spelling := by simpa using List.find?_some hk
          rw [this]
          rfl
        · rfl

theorem spelling_of_spells {lexeme : Text} (h : Spells (.symbol s) lexeme) :
    s ∈ Symbol.all ∧ lexeme = s.spelling := by
  generalize hk : TokenKind.symbol s = k at h
  cases h with
  | symbol hs =>
    cases hk
    exact ⟨hs, rfl⟩
  | number _ => cases hk
  | text _ _ => cases hk
  | @word c t _ _ =>
    have := memberName?_word (c :: t)
    rw [← hk] at this
    cases this

/-- A point with a digit behind it begins a number. -/
theorem number_of_isLongest {digit : Nat} {lexeme : Text} (hc : Text.decimalDigit? c = some digit)
    (h : IsLongest k lexeme ('.'.toNat :: c :: t)) : ∃ n, k = .number n := by
  have htwo : 2 ≤ lexeme.length := by
    have hwhole : Numeral.WritesDigits Text.decimalDigit? [] [] := .nil
    have hdigits : Numeral.WritesDigits Text.decimalDigit? [digit] [c] := .cons hc .nil
    have hwrites : (⟨[], some [digit], none⟩ : Numeral).Writes Text.decimalDigit? _ :=
      .intro hwhole (.present hdigits) .absent (.inr (List.cons_ne_nil digit []))
    exact h.longest _ _ (.number hwrites) ⟨t, rfl⟩
  obtain ⟨hspells, ⟨more, hmore⟩, -⟩ := h
  cases hspells with
  | number _ => exact ⟨_, rfl⟩
  | @symbol s hs =>
    exfalso
    rcases spelling_point s hs (mem_head?_of_append hs hmore) with heq | hone
    · rw [heq] at hmore
      have : c = '.'.toNat := (List.cons.inj (List.cons.inj hmore).2).1.symm
      rw [this, Numeral.isDigitClass_decimalDigit?.point] at hc
      cases hc
    · omega
  | text hquote _ =>
    rw [(List.cons.inj hmore).1] at hquote
    exact absurd hquote (by decide)
  | word hstart _ =>
    rw [(List.cons.inj hmore).1] at hstart
    exact absurd hstart (by decide)

theorem spells_ne_nil {lexeme : Text} (h : Spells k lexeme) : lexeme ≠ [] := by
  rintro rfl
  obtain ⟨k', rest, hnext, -⟩ := next?_of_spells h []
  cases hnext

/-! ## Cuts of a source -/

/-- A token together with what is written for it. -/
structure Piece where
  token : Token
  lexeme : Text

namespace Piece

/-- The position behind what is written. -/
def stop (p : Piece) : Nat := p.token.position + p.lexeme.length

end Piece

/-- From one position of a source to another, it is cut into longest lexemes, one behind the other
with nothing but blanks between them. -/
structure IsCut (source : Text) (start : Nat) (pieces : List Piece) (stop : Nat) : Prop where
  le : start ≤ stop
  inside : ∀ p ∈ pieces, start ≤ p.token.position ∧ p.stop ≤ stop
  ordered : pieces.Pairwise fun p q => p.stop ≤ q.token.position
  longest : ∀ p ∈ pieces, IsLongest p.token.kind p.lexeme (source.drop p.token.position)
  blank : ∀ i c, start ≤ i → i < stop → source[i]? = some c →
    (∀ p ∈ pieces, i < p.token.position ∨ p.stop ≤ i) → Text.isBlank c = true

/-- A place where neither a blank nor a lexeme stands. -/
structure IsStuck (source : Text) (c : CodePoint) (position : Nat) : Prop where
  stands : source[position]? = some c
  visible : Text.isBlank c = false
  unspelled : ∀ k lexeme, Spells k lexeme → ¬ lexeme <+: source.drop position

namespace IsCut

variable {source : Text} {start stop : Nat} {pieces : List Piece}

theorem nil (source : Text) (start : Nat) : IsCut source start [] start := by
  constructor <;> simp
  omega

theorem blank_cons (hc : source[start]? = some c) (hblank : Text.isBlank c = true)
    (h : IsCut source (start + 1) pieces stop) : IsCut source start pieces stop where
  le := by
    have := h.le
    omega
  inside p hp := by
    have := h.inside p hp
    omega
  ordered := h.ordered
  longest := h.longest
  blank i d hstart hstop hd houtside := by
    obtain rfl | hlt := Nat.eq_or_lt_of_le hstart
    · rw [hc] at hd
      cases hd
      exact hblank
    · exact h.blank i d hlt hstop hd houtside

theorem token_cons {lexeme : Text} (hlongest : IsLongest k lexeme (source.drop start))
    (h : IsCut source (start + lexeme.length) pieces stop) :
    IsCut source start (⟨⟨k, start⟩, lexeme⟩ :: pieces) stop where
  le := by
    have := h.le
    omega
  inside p hp := by
    obtain rfl | hp := List.mem_cons.1 hp
    · exact ⟨Nat.le_refl _, h.le⟩
    · have := h.inside p hp
      omega
  ordered := List.pairwise_cons.2 ⟨fun q hq => (h.inside q hq).1, h.ordered⟩
  longest := by
    simp only [List.forall_mem_cons]
    exact ⟨hlongest, h.longest⟩
  blank i d hstart hstop hd houtside := by
    simp only [List.forall_mem_cons] at houtside
    obtain ⟨hfirst, houtside⟩ := houtside
    have hbehind : start + lexeme.length ≤ i := by
      rcases hfirst with hlt | hle
      · exact absurd hlt (Nat.not_lt.2 hstart)
      · exact hle
    exact h.blank i d hbehind hstop hd houtside

/-- What is written for a token is not empty, so the tokens stand at rising positions. -/
theorem rising (h : IsCut source start pieces stop) :
    (pieces.map Piece.token ++ [(⟨.finish, stop⟩ : Token)]).Pairwise
      fun a b => a.position < b.position := by
  have hlt : ∀ p ∈ pieces, p.token.position < p.stop := fun p hp => by
    have := List.length_pos_iff.2 (spells_ne_nil (h.longest p hp).spells)
    rw [Piece.stop]
    omega
  rw [List.pairwise_append, List.pairwise_map]
  refine ⟨h.ordered.imp_of_mem fun {p q} hp _ hle => ?_, List.pairwise_singleton _ _, ?_⟩
  · have := hlt p hp
    omega
  · intro a ha b hb
    obtain ⟨p, hp, rfl⟩ := List.mem_map.1 ha
    obtain rfl := List.mem_singleton.1 hb
    exact Nat.lt_of_lt_of_le (hlt p hp) (h.inside p hp).2

end IsCut

/-- A source is cut up to its end, or up to where neither a blank nor a lexeme stands. -/
inductive Cuts (source : Text) (start : Nat) : Except ExpressionCause (List Token) → Prop
  | finished {pieces : List Piece} (h : IsCut source start pieces source.length) :
    Cuts source start (.ok (pieces.map Piece.token ++ [⟨.finish, source.length⟩]))
  | stuck {pieces : List Piece} {stop : Nat} {c : CodePoint} (h : IsCut source start pieces stop)
    (hstuck : IsStuck source c stop) : Cuts source start (.error (.unexpectedCharacter c stop))

namespace Cuts

variable {source : Text} {start : Nat} {result : Except ExpressionCause (List Token)}

theorem blank_cons (hc : source[start]? = some c) (hblank : Text.isBlank c = true)
    (h : Cuts source (start + 1) result) : Cuts source start result := by
  cases h with
  | finished h => exact .finished (h.blank_cons hc hblank)
  | stuck h hstuck => exact .stuck (h.blank_cons hc hblank) hstuck

theorem token_cons {lexeme : Text} (hlongest : IsLongest k lexeme (source.drop start))
    (h : Cuts source (start + lexeme.length) result) :
    Cuts source start (do return ⟨k, start⟩ :: (← result)) := by
  cases h with
  | finished h => exact .finished (h.token_cons hlongest)
  | stuck h hstuck => exact .stuck (h.token_cons hlongest) hstuck

end Cuts

/-- Each step of the scanner drops a blank or takes the longest lexeme, so a run cuts the source. -/
theorem cuts_tokensFrom {source : Text} {fuel start : Nat} (ht : source.drop start = t)
    (hfuel : t.length ≤ fuel) (hstart : start ≤ source.length) :
    Cuts source start (tokensFrom fuel start t) := by
  induction fuel generalizing start t with
  | zero =>
    obtain rfl : t = [] := List.length_eq_zero_iff.1 (by omega)
    have hend : start = source.length := by
      have := List.drop_eq_nil_iff.1 ht
      omega
    exact hend ▸ .finished (.nil _ _)
  | succ fuel ih =>
    cases t with
    | nil =>
      have hend : start = source.length := by
        have := List.drop_eq_nil_iff.1 ht
        omega
      exact hend ▸ .finished (.nil _ _)
    | cons c t =>
      have hlength := congrArg List.length ht
      simp only [List.length_drop, List.length_cons] at hlength hfuel
      have hc : source[start]? = some c := by
        rw [← List.head?_drop, ht]
        rfl
      rw [tokensFrom]
      split
      · next hblank =>
        have htail : source.drop (start + 1) = t := by
          rw [← List.drop_drop, ht]
          rfl
        exact (ih htail (by omega) (by omega)).blank_cons hc hblank
      · next hvisible =>
        cases hnext : next? (c :: t) with
        | none =>
          exact .stuck (.nil _ _)
            ⟨hc, by simpa using hvisible, fun k lexeme h => ht ▸ not_stands_of_next? hnext h⟩
        | some found =>
          obtain ⟨lexeme, heq, hlongest⟩ := isLongest_of_next? hnext
          have hrest : source.drop (start + lexeme.length) = found.2 := by
            rw [← List.drop_drop, ht, heq, List.drop_left]
          have hshorter := (next?_shortens hnext).length_lt
          have htaken := congrArg List.length heq
          simp only [List.length_cons, List.length_append] at hshorter htaken
          have hafter : (c :: t).length - found.2.length = lexeme.length := by
            rw [List.length_cons]
            omega
          have hrun := ih hrest (by omega) (by omega)
          dsimp only
          rw [hafter]
          exact hrun.token_cons (ht ▸ hlongest)

/-- A symbol that no other symbol at the front of the text is longer than. -/
structure IsLongestSymbol (s : Symbol) (t : Text) : Prop where
  listed : s ∈ Symbol.all
  stands : Text.ofString s.spelling <+: t
  longest : ∀ s' ∈ Symbol.all, Text.ofString s'.spelling <+: t →
    (Text.ofString s'.spelling).length ≤ (Text.ofString s.spelling).length

theorem isLongestSymbol_of_isLongest {lexeme : Text} (h : IsLongest (.symbol s) lexeme t) :
    IsLongestSymbol s t := by
  obtain ⟨hs, rfl⟩ := spelling_of_spells h.spells
  exact ⟨hs, h.stands, fun s' hs' hfront => h.longest _ _ (.symbol hs') hfront⟩

end Lexer

open Lexer in
/-- Every source is cut by longest match: into the longest lexemes, at rising positions and with
nothing but blanks before and between them, with the end of the source as the last token. A symbol
is the longest of the table that stands there, and a point with a digit behind it begins a number.
A source that cannot be cut so is refused at the first place where neither a blank nor a lexeme
stands. -/
theorem tokenize_longest (source : Text) :
    match tokenize source with
    | .ok tokens => ∃ pieces : List Piece,
        tokens = pieces.map Piece.token ++ [⟨.finish, source.length⟩] ∧
        tokens.Pairwise (fun a b => a.position < b.position) ∧
        IsCut source 0 pieces source.length ∧
        (∀ p ∈ pieces, ∀ s, p.token.kind = .symbol s →
          p.lexeme = s.spelling ∧ IsLongestSymbol s (source.drop p.token.position)) ∧
        ∀ p ∈ pieces, ∀ c t, source.drop p.token.position = '.'.toNat :: c :: t →
          Text.decimalDigit? c ≠ none → ∃ n, p.token.kind = .number n
    | .error cause => ∃ (pieces : List Piece) (stop : Nat) (c : CodePoint),
        IsCut source 0 pieces stop ∧ IsStuck source c stop ∧
        cause = .unexpectedCharacter c stop := by
  have h : Cuts source 0 (tokenize source) :=
    cuts_tokensFrom List.drop_zero (Nat.le_refl _) (Nat.zero_le _)
  cases htokens : tokenize source with
  | error cause =>
    rw [htokens] at h
    cases h with
    | stuck h hstuck => exact ⟨_, _, _, h, hstuck, rfl⟩
  | ok tokens =>
    rw [htokens] at h
    cases h with
    | @finished pieces h =>
      refine ⟨pieces, rfl, h.rising, h, fun p hp s hs => ?_, fun p hp c t hdrop hc => ?_⟩
      · have hlongest := h.longest p hp
        rw [hs] at hlongest
        exact ⟨(spelling_of_spells hlongest.spells).2, isLongestSymbol_of_isLongest hlongest⟩
      · obtain ⟨digit, hdigit⟩ := Option.ne_none_iff_exists'.1 hc
        have hlongest := h.longest p hp
        rw [hdrop] at hlongest
        exact number_of_isLongest hdigit hlongest

example : tokenize "x>>>=y??.." = .ok
    [⟨.name "x", 0⟩, ⟨.symbol (.assign ⟨some .shiftRightUnsigned⟩), 1⟩, ⟨.name "y", 5⟩,
      ⟨.symbol (.binary .nullish), 6⟩, ⟨.symbol .dot, 8⟩, ⟨.symbol .dot, 9⟩, ⟨.finish, 10⟩] := by
  decide

end SceneTemplates
