import SceneTemplates.Text.Printable

/-!
# Quoted text in messages

Messages show a text between quotes: single ones, or double ones when the text holds a single
quote and no double quote. Inside, the backslash, the quote and the line controls have short
escapes, and what is not printable is written by its number.
-/
namespace SceneTemplates.Text

/-- The numbered escape of a code point: two, four or eight hexadecimal digits. -/
def numberedEscape (c : CodePoint) : Text :=
  if c < 0x100 then "\\x" ++ hexadecimal 2 c
  else if c < 0x10000 then "\\u" ++ hexadecimal 4 c
  else "\\U" ++ hexadecimal 8 c

/-- One code point inside quotes. -/
def quotedPoint (quote c : CodePoint) : Text :=
  if c = '\\'.toNat || c = quote then ['\\'.toNat, c]
  else if c = '\n'.toNat then "\\n"
  else if c = '\r'.toNat then "\\r"
  else if c = '\t'.toNat then "\\t"
  else if isPrintable c then [c]
  else numberedEscape c

/-- The quote a text is written with. -/
def quoteFor (t : Text) : CodePoint :=
  if t.contains '\''.toNat && !t.contains '"'.toNat then '"'.toNat else '\''.toNat

def quoted (t : Text) : Text :=
  let quote := quoteFor t
  quote :: t.flatMap (quotedPoint quote) ++ [quote]

end SceneTemplates.Text
