import SceneTemplates.Text.Blank
import SceneTemplates.Text.DecimalDigit

/-!
# Integers as text

An integer in a setting is written with decimal digits of any script, single underscores between
them, an optional sign before them and spaces around all of it.
-/
namespace SceneTemplates.IntegerText

/-- The longest run of digits that is read. -/
def maxDigits : Nat := 4300

/-- The digits; an underscore may stand between two of them. -/
def digits? : Text → Option (List Nat)
  | [] => some []
  | [c] => do return [← Text.decimalDigit? c]
  | c :: next :: rest => do
    let d ← Text.decimalDigit? c
    if next = '_'.toNat then
      if rest.isEmpty then none else return d :: (← digits? rest)
    else return d :: (← digits? (next :: rest))

/-- The integer that a text denotes. -/
def value? (t : Text) : Option Int := do
  let (negative, unsigned) :=
    match Text.trimBy Text.isSpace t with
    | c :: rest =>
      if c = '-'.toNat then (true, rest)
      else if c = '+'.toNat then (false, rest)
      else (false, c :: rest)
    | [] => (false, [])
  let digits ← digits? unsigned
  if digits.isEmpty || maxDigits < digits.length then none
  else
    let n : Int := Text.ofDigits 10 digits
    return if negative then -n else n

end SceneTemplates.IntegerText
