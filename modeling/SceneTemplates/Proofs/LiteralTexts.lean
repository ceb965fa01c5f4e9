import SceneTemplates.Component.Classification
import SceneTemplates.Proofs.QuotedTexts

/-!
# Literal texts

A quoted attribute and a quoted text of an expression are decoded by different rules. Between double
quotes the rules of an attribute are those of JSON, whose escapes are among those of an expression;
between single quotes only the escaped quote is decoded. A body that an attribute admits is decoded
to the same text by both, unless a backslash stands before another character than a single quote
between two of these, or the halves of a surrogate pair are escaped.
-/
namespace SceneTemplates

open Lexer (QuotedBody unescape unescape_plain unescape_escape escaped fourHexDigits?)

variable {c e quote : CodePoint} {body rest t : Text}

/-! ## Bodies of attributes -/

namespace Attribute

/-- The bodies of quoted attributes: a backslash takes any character along. -/
inductive RawBody (quote : CodePoint) : Text → Prop where
  | nil : RawBody quote []
  | plain {c : CodePoint} {body : Text} (hquote : c ≠ quote) (hescape : c ≠ '\\'.toNat)
    (h : RawBody quote body) : RawBody quote (c :: body)
  | escape {e : CodePoint} {body : Text} (h : RawBody quote body) :
    RawBody quote ('\\'.toNat :: e :: body)

theorem body?_eq_some (h : body? quote t = some body) :
    t = body ++ [quote] ∧ RawBody quote body := by
  fun_induction body? quote t generalizing body with
  | case1 | case3 | case4 => cases h
  | case2 rest hrest =>
    cases h
    rw [List.isEmpty_iff.1 hrest]
    exact ⟨rfl, .nil⟩
  | case5 e more hquote ih =>
    obtain ⟨body, hbody, rfl⟩ := Option.map_eq_some_iff.1 h
    obtain ⟨rfl, hraw⟩ := ih hbody
    exact ⟨rfl, .escape hraw⟩
  | case6 c rest hquote hescape ih =>
    obtain ⟨body, hbody, rfl⟩ := Option.map_eq_some_iff.1 h
    obtain ⟨rfl, hraw⟩ := ih hbody
    exact ⟨rfl, .plain hquote hescape hraw⟩

theorem quotedBody?_eq_some (h : quotedBody? quote t = some body) :
    t = quote :: (body ++ [quote]) ∧ RawBody quote body := by
  cases t with
  | nil => cases h
  | cons c rest =>
    rw [quotedBody?] at h
    split_ifs at h with hc
    obtain ⟨rfl, hraw⟩ := body?_eq_some h
    rw [hc]
    exact ⟨rfl, hraw⟩

/-! ## Between single quotes -/

/-- Every backslash stands directly before a single quote. -/
def EscapesQuotes (body : Text) : Prop :=
  ∀ front back, body = front ++ '\\'.toNat :: back → back.head? = some '\''.toNat

theorem EscapesQuotes.behind {front : Text} (h : EscapesQuotes (front ++ body)) :
    EscapesQuotes body := by
  rintro more back rfl
  exact h (front ++ more) back (List.append_assoc ..).symm

theorem escapesQuotes_cons : EscapesQuotes (c :: body) ↔
    (c = '\\'.toNat → body.head? = some '\''.toNat) ∧ EscapesQuotes body := by
  constructor
  · intro h
    exact ⟨fun hc => h [] body (congrArg (· :: body) hc), @EscapesQuotes.behind body [c] h⟩
  · rintro ⟨hfirst, hrest⟩ front back heq
    cases front with
    | nil =>
      obtain ⟨hc, rfl⟩ := List.cons.inj heq
      exact hfirst hc
    | cons d front => exact hrest front back (List.cons.inj heq).2

instance decidableEscapesQuotes : DecidablePred EscapesQuotes
  | [] => isTrue fun front back h => by simp at h
  | _ :: body =>
    have : Decidable (EscapesQuotes body) := decidableEscapesQuotes body
    decidable_of_iff _ escapesQuotes_cons.symm

@[simp] theorem unescapeQuotes_plain (hc : c ≠ '\\'.toNat) (body : Text) :
    unescapeQuotes (c :: body) = c :: unescapeQuotes body := by
  cases body with
  | nil => rfl
  | cons e rest =>
    rw [unescapeQuotes, decide_eq_false hc, Bool.false_and, if_neg Bool.false_ne_true]

theorem RawBody.single (h : RawBody '\''.toNat body) (honly : EscapesQuotes body) :
    QuotedBody '\''.toNat body ∧ unescape body = unescapeQuotes body := by
  induction h with
  | nil => exact ⟨.nil, rfl⟩
  | @plain c body hquote hescape _ ih =>
    obtain ⟨hbody, htext⟩ := ih (@EscapesQuotes.behind body [c] honly)
    rw [unescape_plain hescape, unescapeQuotes_plain hescape, htext]
    exact ⟨.plain hquote hescape hbody, rfl⟩
  | @escape e body _ ih =>
    obtain rfl : e = '\''.toNat := Option.some.inj (honly [] (e :: body) rfl)
    obtain ⟨hbody, htext⟩ := ih (@EscapesQuotes.behind body ['\\'.toNat, '\''.toNat] honly)
    rw [unescape_escape (by decide), htext]
    exact ⟨.escape (by decide) hbody, rfl⟩

end Attribute

/-! ## Between double quotes -/

namespace JsonText

variable {points : List (CodePoint × Bool)}

/-- A body with the code points that it denotes, each with a mark whether a number writes it. -/
inductive Denotes : Text → List (CodePoint × Bool) → Prop where
  | nil : Denotes [] []
  | plain {c : CodePoint} {body : Text} {points : List (CodePoint × Bool)} (hc : c ≠ '\\'.toNat)
    (h : Denotes body points) : Denotes (c :: body) ((c, false) :: points)
  | escape {e point : CodePoint} {body : Text} {points : List (CodePoint × Bool)}
    (he : e ≠ 'u'.toNat) (hpoint : escaped? e = some point) (h : Denotes body points) :
    Denotes ('\\'.toNat :: e :: body) ((point, false) :: points)
  | number {h₁ h₂ h₃ h₄ point : CodePoint} {body : Text} {points : List (CodePoint × Bool)}
    (hpoint : fourHexDigits? h₁ h₂ h₃ h₄ = some point) (h : Denotes body points) :
    Denotes ('\\'.toNat :: 'u'.toNat :: h₁ :: h₂ :: h₃ :: h₄ :: body) ((point, true) :: points)

theorem exists_hexDigits {h₁ h₂ h₃ h₄ : CodePoint} {digits : List ℕ}
    (h : [h₁, h₂, h₃, h₄].mapM Text.hexDigit? = some digits) :
    fourHexDigits? h₁ h₂ h₃ h₄ = some (Text.ofDigits 16 digits) := by
  have hmapped : fourHexDigits? h₁ h₂ h₃ h₄ =
      ([h₁, h₂, h₃, h₄].mapM Text.hexDigit?).map (Text.ofDigits 16) := by
    simp only [fourHexDigits?, List.mapM_cons, List.mapM_nil]
    cases Text.hexDigit? h₁ <;> cases Text.hexDigit? h₂ <;> cases Text.hexDigit? h₃ <;>
      cases Text.hexDigit? h₄ <;> rfl
  rw [hmapped, h]
  rfl

theorem hexDigit_ne_backslash {h₁ h₂ h₃ h₄ point : CodePoint}
    (h : fourHexDigits? h₁ h₂ h₃ h₄ = some point) :
    h₁ ≠ '\\'.toNat ∧ h₂ ≠ '\\'.toNat ∧ h₃ ≠ '\\'.toNat ∧ h₄ ≠ '\\'.toNat := by
  have hnone : Text.hexDigit? 92 = none := rfl
  refine ⟨?_, ?_, ?_, ?_⟩ <;>
  · rintro rfl
    simp [fourHexDigits?, hnone] at h

theorem denotes_of_units (h : units body = .ok points) : Denotes body points := by
  fun_induction units body generalizing points with
  | case1 =>
    cases h
    exact .nil
  | case2 | case4 | case5 | case7 | case8 => cases h
  | case3 h₁ h₂ h₃ h₄ after digits hdigits ih =>
    obtain ⟨others, hothers, hpoints⟩ := Except.bind_eq_ok.1 h
    cases hpoints
    exact .number (exists_hexDigits hdigits) (ih hothers)
  | case6 e more hu point hpoint ih =>
    obtain ⟨others, hothers, hpoints⟩ := Except.bind_eq_ok.1 h
    cases hpoints
    exact .escape hu hpoint (ih hothers)
  | case9 c rest hescape _ ih =>
    obtain ⟨others, hothers, hpoints⟩ := Except.bind_eq_ok.1 h
    cases hpoints
    exact .plain hescape (ih hothers)

/-- The escapes of JSON are among those of an expression. -/
theorem escaped?_eq_some {point : CodePoint} (h : escaped? e = some point) :
    escaped e = point ∧ e ≠ '\n'.toNat := by
  unfold escaped? at h
  split_ifs at h with hself hb hf hn hr ht
  · have hcases : (e = '"'.toNat ∨ e = '\\'.toNat) ∨ e = '/'.toNat := by simpa using hself
    rw [← Option.some.inj h]
    obtain (rfl | rfl) | rfl := hcases <;> decide
  all_goals
    subst e
    rw [← Option.some.inj h]
    decide

theorem Denotes.unescape_eq (h : Denotes body points) : unescape body = points.map Prod.fst := by
  induction h with
  | nil => rfl
  | plain hc _ ih => rw [unescape_plain hc, ih, List.map_cons]
  | escape he hpoint _ ih =>
    rw [unescape_escape he, (escaped?_eq_some hpoint).1, ih, List.map_cons]
  | number hpoint _ ih =>
    rw [unescape, if_pos rfl, if_pos rfl, hpoint, List.map_cons, ← ih]

/-- No half of a surrogate pair is written by number. -/
def NamesNoSurrogate (points : List (CodePoint × Bool)) : Prop :=
  ∀ c, (c, true) ∈ points → isHighSurrogate c = false ∧ isLowSurrogate c = false

instance : DecidablePred NamesNoSurrogate := fun points =>
  decidable_of_iff (∀ point ∈ points, point.2 = true →
      isHighSurrogate point.1 = false ∧ isLowSurrogate point.1 = false)
    ⟨fun h c hc => h (c, true) hc rfl, fun h ⟨c, _⟩ hc hmark => h c (hmark ▸ hc)⟩

theorem joined_eq (h : NamesNoSurrogate points) : joined points = points.map Prod.fst := by
  fun_induction joined points with
  | case1 high low rest hpair _ =>
    obtain ⟨hhigh, -⟩ := h high List.mem_cons_self
    rw [hhigh, Bool.false_and] at hpair
    cases hpair
  | case2 high low rest _ ih =>
    rw [ih fun c hc => h c (List.mem_cons_of_mem _ hc)]
    rfl
  | case3 c mark rest _ ih =>
    rw [ih fun c hc => h c (List.mem_cons_of_mem _ hc), List.map_cons]
  | case4 => rfl

/-- A body that can be decoded is that of a quoted text of an expression. -/
theorem Denotes.quotedBody (h : Attribute.RawBody '"'.toNat body) (hd : Denotes body points) :
    QuotedBody '"'.toNat body := by
  induction h generalizing points with
  | nil => exact .nil
  | plain hquote hescape _ ih =>
    cases hd with
    | plain _ h => exact .plain hquote hescape (ih h)
    | escape | number => exact absurd rfl hescape
  | escape _ ih =>
    cases hd with
    | plain hc _ => exact absurd rfl hc
    | escape he hpoint h => exact .escape (escaped?_eq_some hpoint).2 (ih h)
    | number hpoint h =>
      -- The body goes on behind the letter, and no digit is a backslash.
      obtain ⟨h₁, h₂, h₃, h₄⟩ := hexDigit_ne_backslash hpoint
      exact .escape (by decide) (ih (.plain h₁ (.plain h₂ (.plain h₃ (.plain h₄ h)))))

end JsonText

end SceneTemplates
