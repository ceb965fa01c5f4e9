import SceneTemplates.Number.Basic

/-!
# Powers of doubles

Zeros, infinities, units and powers that lie far outside the range of doubles are settled
exactly; between them the power function of the platform gives the nearest double.
-/
namespace SceneTemplates

namespace Double

/-- The bit pattern of the format. -/
def toBits : Double → UInt64
  | .nan negative _ => if negative then 0xFFF8000000000000 else 0x7FF8000000000000
  | .infinity negative => if negative then 0xFFF0000000000000 else 0x7FF0000000000000
  | .finite negative significand exponent _ =>
    let sign : Nat := if negative then Nat.pow 2 63 else 0
    if significand < Nat.pow 2 52 then (sign + significand).toUInt64
    else (sign + (exponent + 1075).toNat * Nat.pow 2 52 + (significand - Nat.pow 2 52)).toUInt64

/-- The double of a bit pattern. -/
def ofBits (bits : UInt64) : Double :=
  let n := bits.toNat
  let negative := decide (Nat.pow 2 63 ≤ n)
  let exponent : Nat := n / Nat.pow 2 52 % Nat.pow 2 11
  let fraction : Nat := n % Nat.pow 2 52
  if exponent = 2047 then (if fraction = 0 then .infinity negative else .nan negative .fresh)
  else if exponent = 0 then ofMagnitude negative ((fraction : Rat) * twoPow (-1074))
  else
    let significand : Rat := (Nat.pow 2 52 + fraction : Nat)
    ofMagnitude negative (significand * twoPow ((exponent : Int) - 1075))

/-- The double as a number of the platform. -/
def toFloat (x : Double) : Float := Float.ofBits x.toBits

/-- A number of the platform as a double. -/
def ofFloat (x : Float) : Double := if x.isNaN then invalid else ofBits x.toBits

def isOddInteger (x : Double) : Bool :=
  match x.toRat? with
  | some q => q.den == 1 && q.num % 2 != 0
  | none => false

def isOne (x : Double) : Bool := x.toRat? == some 1

/-- The integer part of the base-two logarithm of a positive rational number. -/
def floorLog2 (q : Rat) : Int :=
  let guess : Int := Nat.log2 q.num.natAbs - Nat.log2 q.den
  if twoPow guess ≤ q then guess else guess - 1

/-- A power of a positive magnitude. The base-two logarithm of the base lies in an interval of
length one, which tells when the result is surely too large or surely rounds to zero. -/
def powMagnitude (base exponent : Rat) (x y : Double) : Except ArithmeticFault Double :=
  let log := floorLog2 base
  let least := if 0 ≤ exponent then log * exponent else (log + 1) * exponent
  let most := if 0 ≤ exponent then (log + 1) * exponent else log * exponent
  if base = 1 then .ok (.ofMagnitude false 1)
  else if 1024 ≤ least then .error .overflow
  else if most ≤ -1076 then .ok (.zero false)
  else
    match ofFloat (x.toFloat.pow y.toFloat) with
    | .infinity _ => .error .overflow
    | result => .ok result

/-- The power of two doubles. A negative base with a fractional exponent has no real power. -/
def pow (x y : Double) : Except ArithmeticFault Double :=
  if y.isZero then .ok (.ofMagnitude false 1)
  else if x.isNaN then .ok (carried x y)
  else if y.isNaN then .ok (if x.isOne then x else carried x y)
  else
    match x.abs.toRat?, y.toRat? with
    | some base, none =>
      if base = 1 then .ok (.ofMagnitude false 1)
      else if (base < 1) == y.isNegative then .ok (.infinity false)
      else .ok (.zero false)
    | none, _ =>
      let negative := x.isNegative && y.isOddInteger
      .ok (if y.isNegative then .zero negative else .infinity negative)
    | some base, some exponent =>
      if base = 0 then
        if exponent < 0 then .error .divisionByZero
        else .ok (if y.isOddInteger then x else .zero false)
      else if x.isNegative then
        if y.isIntegral then
          (powMagnitude base exponent x.abs y).map fun r => if y.isOddInteger then r.neg else r
        else
          (powMagnitude base exponent x.abs y).bind fun _ => .error .notReal
      else powMagnitude base exponent x y

end Double

end SceneTemplates
