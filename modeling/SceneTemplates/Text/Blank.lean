import SceneTemplates.Text.Basic

/-!
# Blanks

The spaces are the white space of Unicode; the blanks are these and the four information
separators. Blanks separate tokens and are trimmed from a text that is read as a number or an
option; around an integer in a setting only spaces may stand.
-/
namespace SceneTemplates.Text

def spaces : Ranges :=
  [(0x09, 0x0D), (0x20, 0x20), (0x85, 0x85), (0xA0, 0xA0), (0x1680, 0x1680), (0x2000, 0x200A),
   (0x2028, 0x2029), (0x202F, 0x202F), (0x205F, 0x205F), (0x3000, 0x3000)]

def isSpace (c : CodePoint) : Bool := spaces.contains c

/-- Whether a code point is blank: a space or an information separator. -/
def isBlank (c : CodePoint) : Bool := isSpace c || (0x1C ≤ c && c ≤ 0x1F)

/-- The text without what stands at its two ends and passes a test. -/
def trimBy (test : CodePoint → Bool) (t : Text) : Text :=
  ((t.dropWhile test).reverse.dropWhile test).reverse

/-- The text without the blanks at its two ends. -/
def trim (t : Text) : Text := trimBy isBlank t

end SceneTemplates.Text
