import SceneTemplates.Proofs.DecimalIntegers
import SceneTemplates.Proofs.LiteralTexts
import SceneTemplates.Proofs.LooserBounds
import SceneTemplates.Proofs.WrittenTokens

/-!
# Literal attributes

An attribute that stands for a literal has the value that its text has as an expression. The text is
a single constant, or a minus sign before a number; the numbers of both readers are those of the
same numeral, and changing the sign of what is read gives what is read with the sign.
-/
namespace SceneTemplates

open Lexer (Reads)

/-! ## Sources of one constant -/

namespace Sandbox

variable {σ : Type} {source : Text} {tree : Expr} {v : Value}

/-- The value of a source in a sandbox with the usual bounds, from its tree. -/
theorem evaluate_of_tree (data : Entries Value) (host : Host σ) (state : σ)
    (hlength : source.length ≤ SandboxOptions.standard.maxLength)
    (hparse : parse source SandboxOptions.standard.maxDepth = .ok tree)
    (hvalid : ∀ env, validate env .standard tree = .ok ())
    (hvalue : ∀ ev : Evaluator σ, ev.options = .standard →
      tree.evaluate ev state = (.ok v, state)) :
    ((ofData data .standard).evaluate host source state).1 = .ok v := by
  have hexamined : examined ⟨data, globalEnvironment⟩ .standard source = .ok tree :=
    examined_eq_ok.2 ⟨not_lt.2 hlength, hparse, hvalid _⟩
  have hrun := evaluate_fresh host ⟨data, globalEnvironment⟩ .standard source state
  rw [hexamined] at hrun
  have hfresh : ofData data .standard = fresh ⟨data, globalEnvironment⟩ .standard := rfl
  rw [hfresh, hrun]
  dsimp only
  rw [hvalue _ rfl]

/-- A source of one constant. -/
theorem evaluate_constant (data : Entries Value) (host : Host σ) (state : σ)
    (hlength : source.length ≤ SandboxOptions.standard.maxLength) (c : Constant)
    (hreads : Reads source [c.token]) :
    ((ofData data .standard).evaluate host source state).1 = .ok c.value := by
  have hparse : parse source SandboxOptions.standard.maxDepth = .ok (.constant c) := by
    obtain ⟨tokens, htokens, hkinds⟩ := exists_tokens hreads
    obtain ⟨position, ends, rfl, hends⟩ := Parser.exists_head hkinds
    obtain ⟨position', nothing, rfl, hnothing⟩ := Parser.exists_head hends
    cases List.map_eq_nil_iff.1 hnothing
    refine parse_eq_ok.2 ⟨_, htokens, ?_⟩
    cases c <;> rfl
  refine evaluate_of_tree data host state hlength hparse (fun env => rfl) fun ev hev => ?_
  unfold Expr.evaluate Evaluator.evaluate
  rw [hev]
  rfl

/-- A source of a minus sign and a number. -/
theorem evaluate_minus (data : Entries Value) (host : Host σ) (state : σ)
    (hlength : source.length ≤ SandboxOptions.standard.maxLength) (n : Number)
    (hreads : Reads source [.symbol (.binary .minus), .number n]) :
    ((ofData data .standard).evaluate host source state).1 = .ok (.number n.collapse.neg) := by
  have hparse : parse source SandboxOptions.standard.maxDepth =
      .ok (.unary .minus (.constant (.number n))) := by
    obtain ⟨tokens, htokens, hkinds⟩ := exists_tokens hreads
    obtain ⟨position, behind, rfl, hbehind⟩ := Parser.exists_head hkinds
    obtain ⟨position', ends, rfl, hends⟩ := Parser.exists_head hbehind
    obtain ⟨position'', nothing, rfl, hnothing⟩ := Parser.exists_head hends
    cases List.map_eq_nil_iff.1 hnothing
    exact parse_eq_ok.2 ⟨_, htokens, rfl⟩
  refine evaluate_of_tree data host state hlength hparse (fun env => rfl) fun ev hev => ?_
  unfold Expr.evaluate Evaluator.evaluate Evaluator.evaluate
  rw [hev]
  rfl

end Sandbox

/-! ## Numbers -/

section Numbers

variable {c digit : ℕ} {t w : Text} {digits : List ℕ} {n : Numeral}

theorem decimalDigit?_bounds (h : Text.decimalDigit? c = some digit) :
    digit < 10 ∧ Text.isBlank c = false := by
  obtain ⟨first, hfound, hdigit⟩ := Option.map_eq_some_iff.1 h
  have hrange := List.find?_some hfound
  have hzero := List.mem_of_find?_eq_some hfound
  simp only [Bool.and_eq_true, decide_eq_true_eq] at hrange
  have hlow : (first : ℕ) ≤ c := hrange.1
  have hhigh : (c : ℕ) < first + 10 := hrange.2
  have hvisible : ∀ first ∈ Text.decimalZeros, ∀ k < 10, Text.isBlank (first + k) = false := by
    decide +kernel
  have hless := Nat.sub_lt_left_of_lt_add hlow hhigh
  have hblank := hvisible first hzero (c - first) hless
  rw [Nat.add_sub_cancel' hlow] at hblank
  exact ⟨hdigit ▸ hless, hblank⟩

theorem digits_lt (h : Numeral.WritesDigits Text.decimalDigit? digits w) :
    ∀ d ∈ digits, d < 10 := by
  induction h with
  | nil => simp
  | cons hc _ ih => exact List.forall_mem_cons.2 ⟨(decimalDigit?_bounds hc).1, ih⟩

namespace Number

/-- What is read without a sign becomes what is read with it by changing the sign. -/
theorem collapse_neg_ofNumeral (h : n.Writes Text.decimalDigit? w) :
    (ofNumeral false n).collapse.neg = ofNumeral true n := by
  obtain @⟨whole, f, e, hwhole, -, -, -⟩ := h
  have hvalue := Text.ofDigits_lt (digits_lt hwhole)
  unfold ofNumeral
  by_cases hexact : (n.isInteger && decide (n.whole.length ≤ exactDigits)) = true
  · have hlength : n.whole.length ≤ exactDigits := by
      rw [Bool.and_eq_true, decide_eq_true_iff] at hexact
      exact hexact.2
    have hrange : (int n.toNat).IsInRange :=
      isInRange_of_lt (hvalue.trans_le (Nat.pow_le_pow_right (by norm_num) hlength))
    rw [if_pos hexact, if_pos hexact, if_neg Bool.false_ne_true, if_pos rfl, hrange.collapse_eq]
    rfl
  · rw [if_neg hexact, if_neg hexact, Numeral.toDouble_eq, Numeral.toDouble_eq]
    exact congrArg double (Double.neg_ofMagnitude false _)

end Number

/-- A written numeral that begins with a digit is a single token. -/
theorem reads_numeral (h : n.Writes Text.decimalDigit? w) (hwhole : n.whole ≠ []) :
    Reads w [.number (Number.ofNumeral false n)] ∧
      ∃ c digit rest, w = c :: rest ∧ Text.decimalDigit? c = some digit := by
  have hscan := Numeral.scan?_of_writes Numeral.isDigitClass_decimalDigit? h
  have hnext := Lexer.next?_of_scan? hscan
  obtain @⟨whole, f, e, hdigits, -, -, -⟩ := h
  obtain ⟨digit, digits, hcons⟩ := List.exists_cons_of_ne_nil hwhole
  rw [hcons] at hdigits
  obtain ⟨c, rest, hc, -, rfl⟩ := List.forall₂_cons_left_iff.1 hdigits
  exact ⟨.token (decimalDigit?_bounds hc).2 hnext .nil, c, digit, _, rfl, hc⟩

theorem minus_unless : ∀ s ∈ Symbol.all, (Text.ofString s.spelling).head? = some '-'.toNat →
    s = .binary .minus ∨ (Text.ofString s.spelling).tail.head? = some '-'.toNat ∨
      (Text.ofString s.spelling).tail.head? = some '='.toNat := by
  decide

/-- The longer symbols that begin with a minus sign go on with a sign too. -/
theorem symbol?_minus (hc : Text.decimalDigit? c = some digit) (rest : Text) :
    Lexer.symbol? ('-'.toNat :: c :: rest) = some (.binary .minus, c :: rest) := by
  have hminus : Lexer.behind? "-" ('-'.toNat :: c :: rest) = some (c :: rest) := rfl
  obtain ⟨s, after, hs, -⟩ := Lexer.exists_symbol? (s := .binary .minus) (by decide)
    ⟨c :: rest, (Lexer.behind?_eq_some.1 hminus).symm⟩
  obtain ⟨hmem, heq⟩ := Lexer.spelled_of_symbol? hs
  obtain ⟨d, spelling, hspelling⟩ := List.exists_cons_of_ne_nil (Lexer.spelling_ne_nil s hmem)
  rw [hspelling, List.cons_append] at heq
  obtain ⟨rfl, htail⟩ := List.cons.inj heq
  have hother : ∀ d, Text.decimalDigit? d = none → spelling.head? ≠ some d := by
    rintro d hd hhead
    obtain ⟨more, rfl⟩ := List.head?_eq_some_iff.1 hhead
    obtain ⟨rfl, -⟩ := List.cons.inj htail
    cases hd.symm.trans hc
  have hcases := minus_unless s hmem (by rw [hspelling]; rfl)
  rw [hspelling] at hcases
  obtain rfl : s = .binary .minus := hcases.resolve_right fun h =>
    h.elim (hother _ (by decide)) (hother _ (by decide))
  cases hspelling
  rw [hs, htail]
  rfl

/-- Before a digit a minus sign is a token of its own. -/
theorem next?_minus (hc : Text.decimalDigit? c = some digit) (rest : Text) :
    Lexer.next? ('-'.toNat :: c :: rest) = some (.symbol (.binary .minus), c :: rest) := by
  have hspread : Lexer.behind? "..." ('-'.toNat :: c :: rest) = none := rfl
  have hnumber : Numeral.scan? Text.decimalDigit? ('-'.toNat :: c :: rest) = none := by
    by_contra hsome
    obtain ⟨⟨n, after⟩, hn⟩ := Option.ne_none_iff_exists'.1 hsome
    exact (Lexer.scan?_head hn).elim (absurd (by decide)) (by decide)
  unfold Lexer.next?
  rw [hspread, hnumber, symbol?_minus hc]

/-- A number in an attribute is a numeral that begins with a digit, after a minus sign or none. -/
theorem Attribute.number?_eq_some {number : Number} (h : number? t = some number) :
    ∃ (negative : Bool) (n : Numeral) (w : Text),
      t = (if negative then Text.ofString "-" else []) ++ w ∧ n.Writes Text.decimalDigit? w ∧
        n.whole ≠ [] ∧ number = .ofNumeral negative n := by
  unfold number? at h
  split at h
  next negative w hsign =>
    have hform : t = (if negative then Text.ofString "-" else []) ++ w := by
      cases t with
      | nil =>
        cases hsign
        rfl
      | cons c rest =>
        dsimp only at hsign
        split_ifs at hsign with hminus
        · cases hsign
          rw [hminus]
          rfl
        · cases hsign
          rfl
    split at h
    · next n hn =>
      split_ifs at h with hshape
      refine ⟨negative, n, w, hform, Numeral.writes_of_ofText? hn, ?_, (Option.some.inj h).symm⟩
      intro hnil
      simp [hnil] at hshape
    · cases h

end Numbers

/-- A body between quotes is a single token. -/
theorem reads_body {quote : CodePoint} {body : Text} (hquote : Lexer.IsQuote quote)
    (h : Lexer.QuotedBody quote body) :
    Reads (quote :: (body ++ [quote])) [.text (Lexer.unescape body)] :=
  .token (Lexer.isBlank_quote hquote) (Lexer.next?_of_quotedBody hquote h []) .nil

/-! ## Literals -/

namespace Attribute

/-- The quoted texts whose escapes mean the same in an attribute and in an expression: between
single quotes only a single quote is escaped, and between double quotes no half of a surrogate
pair is written by number. -/
structure SharesEscapes (t : Text) : Prop where
  single : ∀ body, quotedBody? '\''.toNat t = some body → EscapesQuotes body
  double : ∀ body points, quotedBody? '"'.toNat t = some body → JsonText.units body = .ok points →
    JsonText.NamesNoSurrogate points

instance : DecidablePred SharesEscapes := fun t =>
  decidable_of_iff ((∀ body ∈ quotedBody? '\''.toNat t, EscapesQuotes body) ∧
      ∀ body ∈ quotedBody? '"'.toNat t, ∀ points ∈ (JsonText.units body).toOption,
        JsonText.NamesNoSurrogate points)
    ⟨fun ⟨hsingle, hdouble⟩ => ⟨hsingle, fun body points hbody hunits =>
        hdouble body hbody points (by rw [hunits]; rfl)⟩,
      fun h => ⟨h.single, fun body hbody points hunits =>
        h.double body points hbody (Except.toOption_eq_some.1 hunits)⟩⟩

/-- What a literal attribute is read as in an expression. -/
inductive ReadsLiteral (t : Text) : Value → Prop where
  | constant (c : Constant) (h : Reads t [c.token]) : ReadsLiteral t c.value
  | minus (n : Number) (h : Reads t [.symbol (.binary .minus), .number n]) :
    ReadsLiteral t (.number n.collapse.neg)

variable {t : Text} {v : Value}

theorem readsLiteral_number {number : Number} (h : number? t = some number) :
    ReadsLiteral t (.number number) := by
  obtain ⟨negative, n, w, rfl, hwrites, hwhole, rfl⟩ := number?_eq_some h
  obtain ⟨hreads, c, digit, rest, rfl, hdigit⟩ := reads_numeral hwrites hwhole
  cases negative with
  | false => exact .constant (.number _) hreads
  | true =>
    rw [← Number.collapse_neg_ofNumeral hwrites]
    exact .minus _ (.token (by decide) (next?_minus hdigit rest) hreads)

theorem readsLiteral_single {body : Text} (h : quotedBody? '\''.toNat t = some body)
    (honly : EscapesQuotes body) : ReadsLiteral t (.text (unescapeQuotes body)) := by
  obtain ⟨rfl, hraw⟩ := quotedBody?_eq_some h
  obtain ⟨hbody, htext⟩ := hraw.single honly
  rw [← htext]
  exact .constant (.text _) (reads_body (.inr rfl) hbody)

theorem readsLiteral_double {body : Text} {points : List (CodePoint × Bool)}
    (h : quotedBody? '"'.toNat t = some body) (hunits : JsonText.units body = .ok points)
    (hnone : JsonText.NamesNoSurrogate points) :
    ReadsLiteral t (.text (JsonText.joined points)) := by
  obtain ⟨rfl, hraw⟩ := quotedBody?_eq_some h
  have hdenotes := JsonText.denotes_of_units hunits
  rw [JsonText.joined_eq hnone, ← hdenotes.unescape_eq]
  exact .constant (.text _) (reads_body (.inl rfl) (hdenotes.quotedBody hraw))

theorem readsLiteral_ofText (h : ofText t = .ok (.literal v)) (hshares : SharesEscapes t) :
    ReadsLiteral t v := by
  unfold ofText at h
  split_ifs at h with htrue hfalse
  · cases h
    rw [htrue]
    exact .constant (.bool true) (.token (by decide) rfl .nil)
  · cases h
    rw [hfalse]
    exact .constant (.bool false) (.token (by decide) rfl .nil)
  · split at h
    · next n hn =>
      cases h
      exact readsLiteral_number hn
    · split at h
      · next body hbody =>
        cases h
        exact readsLiteral_single hbody (hshares.single body hbody)
      · split at h
        · next body hbody =>
          obtain ⟨decoded, hdecoded, hvalue⟩ := Except.map_eq_ok.1 h
          obtain ⟨points, hunits, rfl⟩ := Except.map_eq_ok.1 hdecoded
          cases hvalue
          exact readsLiteral_double hbody hunits (hshares.double body points hbody hunits)
        · cases h

/-- A text that an attribute takes as a literal means the same as an expression: with the usual
bounds its value is that of the attribute, whatever the data and the host are, unless it is longer
than a source may be or quotes a text with escapes of which the two decode others. -/
theorem evaluate_literal {σ : Type} (data : Entries Value) (host : Host σ) (state : σ)
    (line : Option ℤ) (t : Text) (v : Value) (h : classify (.text t) line = .ok (.literal v))
    (hlength : t.length ≤ SandboxOptions.standard.maxLength) (hshares : SharesEscapes t) :
    ((Sandbox.ofData data .standard).evaluate host t state).1 = .ok v := by
  have htext : ofText t = .ok (.literal v) := by
    unfold classify at h
    dsimp only at h
    split at h
    · next a ha => exact ha.trans (congrArg _ (Except.ok.inj h))
    · cases h
  cases readsLiteral_ofText htext hshares with
  | constant c hreads => exact Sandbox.evaluate_constant data host state hlength c hreads
  | minus n hreads => exact Sandbox.evaluate_minus data host state hlength n hreads

/-- A text in single quotes with an escaped quote, one in double quotes with an escape by number,
and a number below zero. -/
theorem evaluate_literal_escapes :
    ((Sandbox.ofData [] .standard).evaluate Host.none "'it\\'s'" ()).1 = .ok (.text "it's") ∧
      ((Sandbox.ofData [] .standard).evaluate Host.none "\"\\u0041\\n\"" ()).1 =
        .ok (.text "A\n") ∧
      ((Sandbox.ofData [] .standard).evaluate Host.none "-12" ()).1 = .ok (.number (.int (-12))) := by
  have hsingle : number? "'it\\'s'" = none ∧
      quotedBody? '\''.toNat "'it\\'s'" = some (Text.ofString "it\\'s") ∧
      unescapeQuotes "it\\'s" = Text.ofString "it's" := by
    decide +kernel
  have hdouble : number? "\"\\u0041\\n\"" = none ∧ quotedBody? '\''.toNat "\"\\u0041\\n\"" = none ∧
      quotedBody? '"'.toNat "\"\\u0041\\n\"" = some (Text.ofString "\\u0041\\n") ∧
      (JsonText.decode "\\u0041\\n").toOption = some (Text.ofString "A\n") := by
    decide +kernel
  have hnumber : number? "-12" = some (.int (-12)) := by decide +kernel
  refine ⟨evaluate_literal [] Host.none () none "'it\\'s'" (.text "it's") ?_ (by decide)
      (by decide +kernel),
    evaluate_literal [] Host.none () none "\"\\u0041\\n\"" (.text "A\n") ?_ (by decide)
      (by decide +kernel),
    evaluate_literal [] Host.none () none "-12" (.number (.int (-12))) ?_ (by decide)
      (by decide +kernel)⟩
  · obtain ⟨hnone, hbody, htext⟩ := hsingle
    rw [classify, ofText, if_neg (by decide), if_neg (by decide), hnone, hbody]
    exact congrArg (fun t => Except.ok (literal (.text t))) htext
  · obtain ⟨hnone, hother, hbody, hdecoded⟩ := hdouble
    rw [classify, ofText, if_neg (by decide), if_neg (by decide), hnone, hother, hbody]
    dsimp only
    rw [Except.toOption_eq_some.1 hdecoded]
    rfl
  · rw [classify, ofText, if_neg (by decide), if_neg (by decide), hnumber]

end Attribute

end SceneTemplates
