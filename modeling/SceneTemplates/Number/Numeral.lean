import SceneTemplates.Number.Double
import SceneTemplates.Text.Basic

/-!
# Decimal numerals

A numeral is digits with an optional fraction and an optional exponent. Scanning takes the
longest numeral at the front of a text; which code points are digits is a parameter, because
sources admit the digits of every script and number texts only the ASCII ones.
-/
namespace SceneTemplates

/-- The parts of a numeral, as digit values. -/
structure Numeral where
  whole : List Nat
  /-- The digits behind the point, if there is a point. -/
  fraction : Option (List Nat)
  exponent : Option Int
  deriving DecidableEq

namespace Numeral

/-- The digits at the front of a text, and the rest. -/
def takeDigits (digit? : CodePoint → Option Nat) : Text → List Nat × Text
  | [] => ([], [])
  | c :: rest =>
    match digit? c with
    | some d =>
      let (digits, rest) := takeDigits digit? rest
      (d :: digits, rest)
    | none => ([], c :: rest)

/-- An exponent mark with an optional sign and at least one digit. -/
def takeExponent (digit? : CodePoint → Option Nat) (t : Text) : Option Int × Text :=
  match t with
  | mark :: rest =>
    if mark = 'e'.toNat || mark = 'E'.toNat then
      let (negative, unsigned) :=
        match rest with
        | sign :: more =>
          if sign = '-'.toNat then (true, more)
          else if sign = '+'.toNat then (false, more)
          else (false, rest)
        | [] => (false, rest)
      match takeDigits digit? unsigned with
      | ([], _) => (none, t)
      | (digits, rest) =>
        let n : Int := Text.ofDigits 10 digits
        (some (if negative then -n else n), rest)
    else (none, t)
  | [] => (none, [])

/-- The longest numeral at the front of a text. It begins with a digit, or with a point before
a digit. -/
def scan? (digit? : CodePoint → Option Nat) (t : Text) : Option (Numeral × Text) :=
  match takeDigits digit? t with
  | ([], point :: rest) =>
    if point = '.'.toNat then
      match takeDigits digit? rest with
      | ([], _) => none
      | (fraction, rest) =>
        let (exponent, rest) := takeExponent digit? rest
        some (⟨[], some fraction, exponent⟩, rest)
    else none
  | ([], []) => none
  | (whole, rest) =>
    let (fraction, rest) :=
      match rest with
      | point :: more =>
        if point = '.'.toNat then
          let (fraction, rest) := takeDigits digit? more
          (some fraction, rest)
        else (none, rest)
      | [] => (none, [])
    let (exponent, rest) := takeExponent digit? rest
    some (⟨whole, fraction, exponent⟩, rest)

/-- The numeral that is the whole text. -/
def ofText? (digit? : CodePoint → Option Nat) (t : Text) : Option Numeral :=
  match scan? digit? t with
  | some (numeral, []) => some numeral
  | _ => none

/-- Digits alone, without point and exponent. -/
def isInteger (n : Numeral) : Bool := n.fraction.isNone && n.exponent.isNone

/-- The integer that the whole digits denote. -/
def toNat (n : Numeral) : Nat := Text.ofDigits 10 n.whole

/-- The double nearest to the decimal that the numeral denotes. Sizes far outside the range of
doubles are settled by the count of digits. -/
def toDouble (negative : Bool) (n : Numeral) : Double :=
  let fraction := n.fraction.getD []
  let digits := Text.ofDigits 10 (n.whole ++ fraction)
  let power := n.exponent.getD 0 - fraction.length
  let size := (Nat.toDigits 10 digits).length + power
  if digits = 0 then .zero negative
  else if 400 < size then .infinity negative
  else if size < -400 then .zero negative
  else .ofMagnitude negative ((digits : Rat) * (10 : Rat) ^ power)

end Numeral

end SceneTemplates
