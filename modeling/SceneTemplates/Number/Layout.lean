import SceneTemplates.Number.Shortest
import SceneTemplates.Text.Basic

/-!
# Layout of decimal numbers

A layout says how shortest digits are laid out as text: which sizes are written with a plain
point, whether an integral value keeps a fraction, and how an exponent is written.
-/
namespace SceneTemplates

/-- The decisions of a number format. -/
structure NumberLayout where
  /-- Positional when the point lies above this place. -/
  pointAbove : Int
  /-- Positional when the point does not lie beyond this place. -/
  pointUpTo : Int
  /-- An integral value in positional notation ends in `.0`. -/
  keepsFraction : Bool
  /-- The least number of exponent digits. -/
  exponentDigits : Nat
  notANumber : Text
  infinity : Text

namespace NumberLayout

def zeros (n : Nat) : Text := List.replicate n '0'.toNat

/-- Digits with a plain point. -/
def positional (layout : NumberLayout) (digits : Text) (point : Int) : Text :=
  if point ≤ 0 then "0." ++ zeros (-point).toNat ++ digits
  else if digits.length ≤ point.toNat then
    digits ++ zeros (point.toNat - digits.length) ++
      (if layout.keepsFraction then Text.ofString ".0" else [])
  else digits.take point.toNat ++ "." ++ digits.drop point.toNat

/-- Digits with one before the point and a signed exponent. -/
def scientific (layout : NumberLayout) (digits : Text) (point : Int) : Text :=
  let fraction := digits.drop 1
  let exponent := Text.ofNat (point - 1).natAbs
  digits.take 1 ++ (if fraction.isEmpty then [] else "." ++ fraction) ++
    (if point - 1 < 0 then Text.ofString "e-" else Text.ofString "e+") ++
    zeros (layout.exponentDigits - exponent.length) ++ exponent

/-- The text of a positive decimal. -/
def writeDecimal (layout : NumberLayout) (d : DecimalForm) : Text :=
  let digits := Text.ofNat d.digits
  if layout.pointAbove < d.point ∧ d.point ≤ layout.pointUpTo then
    layout.positional digits d.point
  else layout.scientific digits d.point

def write (layout : NumberLayout) : Double → Text
  | .nan _ _ => layout.notANumber
  | .infinity negative => (if negative then Text.ofString "-" else []) ++ layout.infinity
  | .finite negative significand exponent _ =>
    (if negative then Text.ofString "-" else []) ++
      if significand = 0 then layout.positional "0" 1
      else layout.writeDecimal (DecimalForm.shortest significand exponent)

/-- Numbers as expressions and messages show them: positional from `0.0001` to below `10 ^ 16`,
with at least one decimal, and exponents of at least two digits. -/
def plain : NumberLayout := ⟨-4, 16, true, 2, "nan", "inf"⟩

/-- Numbers inside JSON output, where only the names of the special values differ. -/
def json : NumberLayout := { plain with notANumber := "NaN", infinity := "Infinity" }

end NumberLayout

end SceneTemplates
