import SceneTemplates.Number.Basic
import SceneTemplates.Number.Numeral
import SceneTemplates.Text.Blank

/-!
# Numbers read from text

A text stands for a number if, without the blanks at its ends, it is empty, a signed decimal
numeral in ASCII digits, a signed `Infinity`, or digits of base sixteen, eight or two after `0x`,
`0o` or `0b`. Every other text stands for no number.
-/
namespace SceneTemplates

namespace Number

/-- The longest run of integer digits that is read exactly. -/
def exactDigits : Nat := 308

/-- The number a numeral denotes: an exact integer if it has neither point nor exponent and
`length`, the number of its digits, is at most 308, else a double. -/
def ofNumeral (negative : Bool) (n : Numeral) : Number :=
  if n.isInteger && n.whole.length ≤ exactDigits then
    .int (if negative then -(n.toNat : Int) else n.toNat)
  else .double (n.toDouble negative)

/-- Splits a leading sign off; the flag says whether it was a minus. -/
def takeSign : Text → Bool × Text
  | c :: rest =>
    if c = '-'.toNat then (true, rest)
    else if c = '+'.toNat then (false, rest)
    else (false, c :: rest)
  | [] => (false, [])

/-- Digits of a base, at least one. -/
def ofBase? (base : Nat) (t : Text) : Option Nat :=
  match t.mapM Text.hexDigit? with
  | some (d :: digits) =>
    if (d :: digits).all (· < base) then some (Text.ofDigits base (d :: digits)) else none
  | _ => none

/-- Digits of base two. A second mark `0b` before them is taken for a part of the digits, which
are letters of base sixteen. -/
def ofBinary? (t : Text) : Option Nat :=
  match t with
  | first :: mark :: rest =>
    if first = '0'.toNat && (mark = 'b'.toNat || mark = 'B'.toNat) then ofBase? 2 rest
    else ofBase? 2 t
  | _ => ofBase? 2 t

/-- The digits behind a base mark. -/
def ofRadix? (t : Text) : Option Nat :=
  match t with
  | first :: mark :: digits =>
    if first ≠ '0'.toNat then none
    else if mark = 'x'.toNat || mark = 'X'.toNat then ofBase? 16 digits
    else if mark = 'o'.toNat || mark = 'O'.toNat then ofBase? 8 digits
    else if mark = 'b'.toNat || mark = 'B'.toNat then ofBinary? digits
    else none
  | _ => none

/-- The number a text stands for; not a number if it stands for none. -/
def ofText (text : Text) : Number :=
  let t := text.trim
  if t.isEmpty then .int 0
  else
    let (negative, unsigned) := takeSign t
    match Numeral.ofText? Text.asciiDigit? unsigned with
    | some numeral => (ofNumeral negative numeral).collapse
    | none =>
      if unsigned = "Infinity" then .double (.infinity negative)
      else
        match ofRadix? t with
        | some n => (Number.int n).collapse
        | none => .double .undetermined

end Number

end SceneTemplates
