import SceneTemplates.Expression.Error
import SceneTemplates.Number.Reading
import SceneTemplates.Text.Blank
import SceneTemplates.Text.DecimalDigit

/-!
# Tokens of a source

A source is cut into tokens from the left; blanks between them are dropped. At each position the
first of these that fits is taken: the spread `...`, a number, the longest symbol, a quoted text,
a name or keyword.
-/
namespace SceneTemplates

namespace Lexer

/-- The rest of a text behind a beginning, if it begins so. -/
def behind? : Text → Text → Option Text
  | [], t => some t
  | _ :: _, [] => none
  | a :: beginning, c :: t => if a = c then behind? beginning t else none

/-- The first symbol of the table at the front of a text; the table lists the longer ones first. -/
def symbol? (t : Text) : Option (Symbol × Text) :=
  Symbol.all.findSome? fun s => (behind? s.spelling t).map fun rest => (s, rest)

/-- The body of a quoted text up to the closing quote, escapes kept, and the rest behind it. An
escape takes any code point but a line feed. -/
def quotedBody? (quote : CodePoint) : Text → Option (Text × Text)
  | [] => none
  | c :: t =>
    if c = quote then some ([], t)
    else if c = '\\'.toNat then
      match t with
      | [] => none
      | escaped :: rest =>
        if escaped = '\n'.toNat then none
        else (quotedBody? quote rest).map fun (body, after) => (c :: escaped :: body, after)
    else (quotedBody? quote t).map fun (body, after) => (c :: body, after)

/-- What a letter stands for behind a backslash; every other code point stands for itself. -/
def escaped (c : CodePoint) : CodePoint :=
  if c = 'n'.toNat then 10
  else if c = 't'.toNat then 9
  else if c = 'r'.toNat then 13
  else if c = 'b'.toNat then 8
  else if c = 'f'.toNat then 12
  else if c = 'v'.toNat then 11
  else if c = '0'.toNat then 0
  else c

/-- The code point that four hexadecimal digits denote. -/
def fourHexDigits? (a b c d : CodePoint) : Option CodePoint := do
  return Text.ofDigits 16
    [← Text.hexDigit? a, ← Text.hexDigit? b, ← Text.hexDigit? c, ← Text.hexDigit? d]

/-- The text that a quoted body denotes. A `\u` with four hexadecimal digits is a code point. -/
def unescape : Text → Text
  | c :: e :: h₁ :: h₂ :: h₃ :: h₄ :: rest =>
    if c = '\\'.toNat then
      match if e = 'u'.toNat then fourHexDigits? h₁ h₂ h₃ h₄ else none with
      | some point => point :: unescape rest
      | none => escaped e :: unescape (h₁ :: h₂ :: h₃ :: h₄ :: rest)
    else c :: unescape (e :: h₁ :: h₂ :: h₃ :: h₄ :: rest)
  | c :: e :: rest =>
    if c = '\\'.toNat then escaped e :: unescape rest else c :: unescape (e :: rest)
  | t => t

def isNameStart (c : CodePoint) : Bool :=
  (97 ≤ c && c ≤ 122) || (65 ≤ c && c ≤ 90) || c = '_'.toNat || c = '$'.toNat

def isNamePart (c : CodePoint) : Bool := isNameStart c || (48 ≤ c && c ≤ 57)

/-- A word as a token: a constant, a keyword, or else a name. -/
def word (t : Text) : TokenKind :=
  if t = "true" then .bool true
  else if t = "false" then .bool false
  else if t = "null" then .null
  else
    match Keyword.all.find? fun k => t = Text.ofString k.spelling with
    | some k => .keyword k
    | none => .name t

/-- The token at the front of a text that does not begin with a blank, and the rest. -/
def next? (t : Text) : Option (TokenKind × Text) :=
  match behind? "..." t with
  | some rest => some (.symbol .spread, rest)
  | none =>
    match Numeral.scan? Text.decimalDigit? t with
    | some (numeral, rest) => some (.number (Number.ofNumeral false numeral), rest)
    | none =>
      match symbol? t with
      | some (s, rest) => some (.symbol s, rest)
      | none =>
        match t with
        | [] => none
        | c :: rest =>
          if c = '"'.toNat || c = '\''.toNat then
            (quotedBody? c rest).map fun (body, after) => (.text (unescape body), after)
          else if isNameStart c then
            some (word (t.takeWhile isNamePart), t.dropWhile isNamePart)
          else none

/-- The tokens of a text that begins at a position. The first argument bounds the number of
steps; each step takes at least one code point. -/
def tokensFrom : Nat → Nat → Text → Except ExpressionCause (List Token)
  | _, position, [] => .ok [⟨.finish, position⟩]
  | 0, position, _ => .ok [⟨.finish, position⟩]
  | fuel + 1, position, c :: t =>
    if Text.isBlank c then tokensFrom fuel (position + 1) t
    else
      match next? (c :: t) with
      | none => .error (.unexpectedCharacter c position)
      | some (kind, rest) => do
        let after := position + ((c :: t).length - rest.length)
        return ⟨kind, position⟩ :: (← tokensFrom fuel after rest)

end Lexer

/-- The tokens of a source, the last one its end. -/
def tokenize (source : Text) : Except ExpressionCause (List Token) :=
  Lexer.tokensFrom source.length 0 source

end SceneTemplates
