import SceneTemplates.Component.Basic
import SceneTemplates.Text.DecimalDigit
import SceneTemplates.Text.JsonText

/-!
# Classification of attributes

The text of an attribute is a literal if it is `true` or `false`, a decimal number, or a quoted
text; every other text is an expression. In single quotes only the escaped quote is decoded, in
double quotes the text is read as JSON. A value that is no text is a literal as it stands.
-/
namespace SceneTemplates

namespace Attribute

/-- The body between an opening quote, already taken, and a closing one that ends the text. A
backslash takes the character behind it along. -/
def body? (quote : CodePoint) : Text → Option Text
  | [] => none
  | c :: rest =>
    if c = quote then (if rest.isEmpty then some [] else none)
    else if c = '\\'.toNat then
      match rest with
      | [] => none
      | escaped :: more => (body? quote more).map fun body => c :: escaped :: body
    else (body? quote rest).map fun body => c :: body

/-- The body of a text between quotes. -/
def quotedBody? (quote : CodePoint) : Text → Option Text
  | [] => none
  | c :: rest => if c = quote then body? quote rest else none

/-- The text with each escaped single quote as the quote. -/
def unescapeQuotes : Text → Text
  | c :: e :: rest =>
    if c = '\\'.toNat && e = '\''.toNat then e :: unescapeQuotes rest
    else c :: unescapeQuotes (e :: rest)
  | t => t

/-- The number that digits with an optional minus sign and an optional fraction denote. -/
def number? (t : Text) : Option Number :=
  let (negative, unsigned) :=
    match t with
    | c :: rest => if c = '-'.toNat then (true, rest) else (false, t)
    | [] => (false, t)
  match Numeral.ofText? Text.decimalDigit? unsigned with
  | some numeral =>
    if numeral.whole.isEmpty || numeral.fraction = some [] || numeral.exponent.isSome then none
    else some (Number.ofNumeral negative numeral)
  | none => none

/-- The attribute that a text stands for. -/
def ofText (t : Text) : Except JsonTextFault Attribute :=
  if t = "true" then .ok (.literal (.bool true))
  else if t = "false" then .ok (.literal (.bool false))
  else
    match number? t with
    | some n => .ok (.literal (.number n))
    | none =>
      match quotedBody? '\''.toNat t with
      | some body => .ok (.literal (.text (unescapeQuotes body)))
      | none =>
        match quotedBody? '"'.toNat t with
        | some body => (JsonText.decode body).map fun decoded => .literal (.text decoded)
        | none => .ok (.dynamic t)

end Attribute

end SceneTemplates
