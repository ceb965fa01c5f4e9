import SceneTemplates.Functions.Arguments

/-!
# Rounding

A number is rounded to a number of decimals, a half toward positive infinity: the magnitude is
rounded, and the sign decides which way a half goes. With no decimals or fewer the result is an
integer; with more it is the double nearest to the rounded decimal.
-/
namespace SceneTemplates.Rounding

open Arguments

/-- Where a magnitude goes that lies half-way between two integers. -/
inductive HalfRule where
  /-- To the greater one, away from zero. -/
  | up
  /-- To the smaller one, toward zero. -/
  | down
  deriving DecidableEq

/-- The rule that takes a half toward positive infinity. -/
def halfRule (q : Rat) : HalfRule := if 0 ≤ q then .up else .down

/-- The integer nearest to a magnitude. -/
def HalfRule.nearest (rule : HalfRule) (magnitude : Rat) : Nat :=
  let below := magnitude.floor.toNat
  let rest := magnitude - below
  if rest < 1 / 2 then below
  else if 1 / 2 < rest then below + 1
  else
    match rule with
    | .up => below + 1
    | .down => below

/-- The distance from zero. -/
def absolute (q : Rat) : Rat := if q < 0 then -q else q

/-- The rounded magnitude in units of the last decimal. -/
def units (q : Rat) (decimals : Int) : Nat :=
  (halfRule q).nearest (absolute q * (10 : Rat) ^ decimals)

/-- The most digits a rounded decimal may have. -/
def maxDigits : Int := 2000

/-- The numbers of decimals for which a rounding unit exists. -/
def unitExists (decimals : Int) : Bool := -999999 ≤ decimals && decimals ≤ 2003998

/-- The place of the first digit of a number before the point: one for units, zero for tenths. -/
def leadingPlace (q : Rat) : Int := DecimalForm.pointOf (absolute q)

/-- An exact value rounded, if the rounding unit exists and the digits are not too many. The sign
of a zero that is left over is that of the value. -/
def rounded? (negative : Bool) (q : Rat) (decimals : Int) : Option Number :=
  if !unitExists decimals then none
  else if q = 0 then
    some (if decimals ≤ 0 then .int 0 else .double (.zero negative))
  else if maxDigits < leadingPlace q + decimals then none
  else if leadingPlace q + decimals < 0 then
    -- Less than a tenth of a unit is left, whose power of ten need not be computed.
    some (if decimals ≤ 0 then .int 0 else .double (.zero negative))
  else if decimals ≤ 0 then
    let coefficient : Int := if q < 0 then -units q decimals else units q decimals
    some (.int (coefficient * Int.pow 10 decimals.natAbs))
  else some (.double (.ofMagnitude negative (units q decimals / (10 : Rat) ^ decimals)))

/-- Rounds a value. An integer with no decimals taken away, and a double that is infinite or no
number, is returned as it is. -/
def round (v decimals : Value) : Option Value := do
  match ← v.asNumber? with
  | .int n =>
    let places ← decimals.asNumber?
    if (Number.int 0).atMost places then return v
    else
      match places with
      | .int d => do
        let _ ← Double.ofInt? n
        return .number (← rounded? (decide (n < 0)) n d)
      | .double _ => none
  | .double x =>
    match x.toRat? with
    | some q => do return .number (← rounded? x.isNegative q (← integer? decimals))
    | none => return v

/-- Rounds an argument to decimals that are zero unless given. -/
def roundOf : List Value → Option Value
  | [v] => round v (.int 0)
  | [v, decimals] => round v decimals
  | _ => none

end SceneTemplates.Rounding
