import SceneTemplates.Proofs.Lexemes

/-!
# Quoted texts

Every text can be written between quotes: with a backslash before each backslash and before each
quote of the kind that encloses it. The body of what is written so ends at its last quote, and
taking the escapes back gives the text.
-/
namespace SceneTemplates

namespace Lexer

/-- A text with a backslash before each backslash and each quote. -/
def escape (quote : CodePoint) (t : Text) : Text :=
  t.flatMap fun c => if c = '\\'.toNat ∨ c = quote then ['\\'.toNat, c] else [c]

def quoted (quote : CodePoint) (t : Text) : Text := quote :: (escape quote t ++ [quote])

variable {c quote : CodePoint}

@[simp] theorem escape_cons_escaped (h : c = '\\'.toNat ∨ c = quote) (t : Text) :
    escape quote (c :: t) = '\\'.toNat :: c :: escape quote t := by
  simp only [escape, List.flatMap_cons, if_pos h, List.cons_append, List.nil_append]

@[simp] theorem escape_cons_plain (h : ¬ (c = '\\'.toNat ∨ c = quote)) (t : Text) :
    escape quote (c :: t) = c :: escape quote t := by
  simp only [escape, List.flatMap_cons, if_neg h, List.cons_append, List.nil_append]

/-! ## The body -/

/-- Neither a backslash nor a quote is a line feed, so no escape is broken. -/
theorem ne_lineFeed (hquote : IsQuote quote) (h : c = '\\'.toNat ∨ c = quote) :
    c ≠ '\n'.toNat := by
  rcases h with rfl | rfl
  · decide
  · rintro rfl
    exact absurd hquote (by decide)

theorem quotedBody_escape (hquote : IsQuote quote) (t : Text) :
    QuotedBody quote (escape quote t) := by
  induction t with
  | nil => exact .nil
  | cons c t ih =>
    by_cases h : c = '\\'.toNat ∨ c = quote
    · rw [escape_cons_escaped h]
      exact .escape (ne_lineFeed hquote h) ih
    · rw [escape_cons_plain h]
      rw [not_or] at h
      exact .plain h.2 h.1 ih

/-! ## Taking the escapes back -/

@[simp]
theorem unescape_plain (hc : c ≠ '\\'.toNat) (t : Text) : unescape (c :: t) = c :: unescape t := by
  rcases t with _ | ⟨e, _ | ⟨a, _ | ⟨b, _ | ⟨d, _ | ⟨g, t⟩⟩⟩⟩⟩ <;>
    simp only [unescape, if_neg hc]

/-- An escape that is no `\u` is two code points long, whatever follows it. -/
@[simp] theorem unescape_escape (hc : c ≠ 'u'.toNat) (t : Text) :
    unescape ('\\'.toNat :: c :: t) = escaped c :: unescape t := by
  rcases t with _ | ⟨a, _ | ⟨b, _ | ⟨d, _ | ⟨g, t⟩⟩⟩⟩ <;>
    simp only [unescape, if_neg hc, if_true]

theorem escaped_eq (hquote : IsQuote quote) (h : c = '\\'.toNat ∨ c = quote) :
    c ≠ 'u'.toNat ∧ escaped c = c := by
  rcases h with rfl | rfl
  · decide
  · rcases hquote with rfl | rfl <;> decide

@[simp] theorem unescape_of_escape (hquote : IsQuote quote) (t : Text) :
    unescape (escape quote t) = t := by
  induction t with
  | nil => rfl
  | cons c t ih =>
    by_cases h : c = '\\'.toNat ∨ c = quote
    · obtain ⟨hu, hself⟩ := escaped_eq hquote h
      rw [escape_cons_escaped h, unescape_escape hu, hself, ih]
    · rw [escape_cons_plain h]
      rw [not_or] at h
      rw [unescape_plain h.1, ih]

/-! ## The token -/

theorem next?_quoted (hquote : IsQuote quote) (t : Text) :
    next? (quoted quote t) = some (.text t, []) := by
  simp [quoted, next?_of_quotedBody hquote (quotedBody_escape hquote t), hquote]

@[simp] theorem isBlank_quote (hquote : IsQuote quote) : Text.isBlank quote = false := by
  rcases hquote with rfl | rfl <;> decide

end Lexer

open Lexer in
/-- Every text can be written as a literal with either quote: what is written is a single token at
position zero, whose value is the text, and the end behind it. -/
theorem tokenize_quoted (quote : CodePoint) (hquote : IsQuote quote) (t : Text) :
    tokenize (quoted quote t) =
      .ok [⟨.text t, 0⟩, ⟨.finish, (quoted quote t).length⟩] := by
  have hnext := next?_quoted hquote t
  have hlength : (quoted quote t).length = (escape quote t).length + 2 := by
    simp [quoted]
  unfold tokenize
  rw [hlength]
  unfold quoted at hnext hlength ⊢
  rw [tokensFrom, if_neg (by simp [isBlank_quote hquote]), hnext]
  dsimp only
  rw [hlength]
  simp [tokensFrom]

open Lexer in
/-- Among what is read back are a backslash before a quote, the letters of an escape by number, the
other quote, a line feed and a backslash at the end. -/
theorem tokenize_quoted_backslashes :
    IsQuote '"'.toNat ∧
      quoted '"'.toNat "\\\"\\u0041'\nn\\" =
        Text.ofString "\"\\\\\\\"\\\\u0041'\nn\\\\\"" ∧
      tokenize "\"\\\\\\\"\\\\u0041'\nn\\\\\"" =
        .ok [⟨.text "\\\"\\u0041'\nn\\", 0⟩, ⟨.finish, 18⟩] :=
  ⟨by decide, by decide, tokenize_quoted '"'.toNat (by decide) "\\\"\\u0041'\nn\\"⟩

end SceneTemplates
