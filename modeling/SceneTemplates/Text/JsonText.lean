import SceneTemplates.Text.Basic

/-!
# Text in JSON

A text stands in JSON between double quotes. Reading decodes the escapes and joins two escaped
halves of a surrogate pair; writing uses ASCII alone and splits other characters into such
halves.
-/
namespace SceneTemplates

/-- Why the body of a JSON text cannot be read. -/
inductive JsonTextFault where
  /-- A backslash before a character that begins no escape. -/
  | escape
  /-- An escape `\u` without four hexadecimal digits. -/
  | unicodeEscape
  /-- A control character that is not escaped. -/
  | control
  deriving DecidableEq

namespace JsonTextFault

def message : JsonTextFault → String
  | .escape => "Invalid \\escape"
  | .unicodeEscape => "Invalid \\uXXXX escape"
  | .control => "Invalid control character at"

end JsonTextFault

namespace JsonText

/-- The first half of a surrogate pair. -/
def isHighSurrogate (c : CodePoint) : Bool := 0xD800 ≤ c && c < 0xDC00

/-- The second half of a surrogate pair. -/
def isLowSurrogate (c : CodePoint) : Bool := 0xDC00 ≤ c && c < 0xE000

/-- The character of a surrogate pair. -/
def pair (high low : CodePoint) : CodePoint := 0x10000 + (high - 0xD800) * 0x400 + (low - 0xDC00)

/-- What stands behind a backslash, `\u` apart. -/
def escaped? (c : CodePoint) : Option CodePoint :=
  if c = '"'.toNat || c = '\\'.toNat || c = '/'.toNat then some c
  else if c = 'b'.toNat then some 8
  else if c = 'f'.toNat then some 12
  else if c = 'n'.toNat then some 10
  else if c = 'r'.toNat then some 13
  else if c = 't'.toNat then some 9
  else none

/-- The code points of a body, each with a mark whether a `\u` escape wrote it. The first fault
from the left is the error. -/
def units : Text → Except JsonTextFault (List (CodePoint × Bool))
  | [] => .ok []
  | c :: rest =>
    if c = '\\'.toNat then
      match rest with
      | [] => .error .escape
      | e :: more =>
        if e = 'u'.toNat then
          match more with
          | h₁ :: h₂ :: h₃ :: h₄ :: after =>
            match [h₁, h₂, h₃, h₄].mapM Text.hexDigit? with
            | some digits => do return (Text.ofDigits 16 digits, true) :: (← units after)
            | none => .error .unicodeEscape
          | _ => .error .unicodeEscape
        else
          match escaped? e with
          | some point => do return (point, false) :: (← units more)
          | none => .error .escape
    else if c < 0x20 then .error .control
    else do return (c, false) :: (← units rest)

/-- Joins the halves of surrogate pairs that were both written by an escape. -/
def joined : List (CodePoint × Bool) → Text
  | (high, true) :: (low, true) :: rest =>
    if isHighSurrogate high && isLowSurrogate low then pair high low :: joined rest
    else high :: joined ((low, true) :: rest)
  | (c, _) :: rest => c :: joined rest
  | [] => []

/-- The text that a body between double quotes denotes. -/
def decode (body : Text) : Except JsonTextFault Text := (units body).map joined

/-- The escape of a UTF-16 unit. -/
def unitEscape (n : Nat) : Text := "\\u" ++ Text.hexadecimal 4 n

/-- One code point between double quotes, in ASCII. -/
def encodePoint (c : CodePoint) : Text :=
  if c = '"'.toNat then "\\\""
  else if c = '\\'.toNat then "\\\\"
  else if c = 10 then "\\n"
  else if c = 13 then "\\r"
  else if c = 9 then "\\t"
  else if c = 12 then "\\f"
  else if c = 8 then "\\b"
  else if 0x20 ≤ c && c < 0x7F then [c]
  else if c < 0x10000 then unitEscape c
  else
    unitEscape (0xD800 + (c - 0x10000) / 0x400) ++ unitEscape (0xDC00 + (c - 0x10000) % 0x400)

/-- A text between double quotes, in ASCII. -/
def encode (t : Text) : Text := '"'.toNat :: t.flatMap encodePoint ++ ['"'.toNat]

end JsonText

end SceneTemplates
