import SceneTemplates.Functions.Arguments
import SceneTemplates.Number.VectorLength

/-!
# Real functions

Functions on doubles. A finite argument must not lead to an infinite result, and an argument that
is a number must not lead to a result that is none.
-/
namespace SceneTemplates.Real

open Arguments

/-- The value of a function of one double, if it is defined there and within range. -/
def checked (f : Double → Double) (x : Double) : Option Double :=
  let r := f x
  if (r.isNaN && !x.isNaN) || (r.isInfinite && x.isFinite) then none else some r

/-- The value of a function of two doubles, if it is defined there and within range. -/
def checkedPair (f : Double → Double → Double) (x y : Double) : Option Double :=
  let r := f x y
  if (r.isNaN && !x.isNaN && !y.isNaN) || (r.isInfinite && x.isFinite && y.isFinite) then none
  else some r

/-- A function of one double as a function of arguments. -/
def unary (f : Double → Double) : List Value → Option Value
  | [v] => do return .double (← checked f (← double? v))
  | _ => none

/-- A function of two doubles as a function of arguments. -/
def binary (f : Double → Double → Double) : List Value → Option Value
  | [v, w] => do return .double (← checkedPair f (← double? v) (← double? w))
  | _ => none

/-- A function that is defined on every double and may pass its range. -/
def total (f : Double → Double) : List Value → Option Value
  | [v] => do return .double (f (← double? v))
  | _ => none

/-- A function that is defined on every two doubles and may pass its range. -/
def totalPair (f : Double → Double → Double) : List Value → Option Value
  | [v, w] => do return .double (f (← double? v) (← double? w))
  | _ => none

/-- A property of one double. -/
def test (f : Double → Bool) : List Value → Option Value
  | [v] => do return .bool (f (← double? v))
  | _ => none

/-- The power, which must exist. -/
def power : List Value → Option Value
  | [v, w] => do return .double (← ((← double? v).pow (← double? w)).toOption)
  | _ => none

/-- A logarithm of a number. An integer beyond the doubles is a fraction times a power of two. -/
def logarithmOf (f : Double → Double) (v : Value) : Option Double := do
  match ← v.asNumber? with
  | .double x => checked f x
  | .int n =>
    if n ≤ 0 then none
    else
      match Double.ofInt? n with
      | some x => checked f x
      | none =>
        let bits := Number.bitLength n
        let fraction := Double.ofMagnitude false ((n : Rat) / (2 : Rat) ^ bits)
        let exponent := Double.ofRat bits
        return (f fraction).add ((f (.ofMagnitude false 2)).mul exponent)

/-- A logarithm of fixed base. -/
def logarithm (f : Double → Double) : List Value → Option Value
  | [v] => do return .double (← logarithmOf f v)
  | _ => none

/-- The natural logarithm, or that of a given base. -/
def logarithmOfBase : List Value → Option Value
  | [v] => do return .double (← logarithmOf .log v)
  | [v, base] => do
    let dividend ← logarithmOf .log v
    let divisor ← logarithmOf .log base
    if divisor.isZero then none else return .double (dividend.div divisor)
  | _ => none

/-- A fraction and an exponent of two. -/
def fractionAndExponent : List Value → Option Value
  | [v] => do
    let (fraction, exponent) := (← double? v).split
    return .newTuple [.double fraction, .int exponent]
  | _ => none

/-- The part behind the point and the integer part, both with the sign of the number. -/
def fractionAndInteger : List Value → Option Value
  | [v] => do
    let x ← double? v
    let (fraction, integer) :=
      match x.toRat? with
      | some q =>
        let integer : Rat := Double.truncateRat q
        ((Double.ofRat (q - integer)).copySign x, (Double.ofRat integer).copySign x)
      | none => if x.isInfinite then (Double.zero x.isNegative, x) else (x.carried x, x.carried x)
    return .newTuple [.double fraction, .double integer]
  | _ => none

/-- A double times a power of two. -/
def scaled : List Value → Option Value
  | [v, w] => do
    let x ← double? v
    let r := x.scale (← integer? w)
    if r.isInfinite && x.isFinite then none else return .double r
  | _ => none

/-- Whether two doubles differ by at most a billionth of the larger one. -/
def isClose : List Value → Option Value
  | [v, w] => do
    let x ← double? v
    let y ← double? w
    let tolerance := Double.ofMagnitude false (DecimalForm.tenPow (-9))
    let difference := (y.sub x).abs
    let within := fun (bound : Double) =>
      !difference.isNaN && !bound.isNaN && !(bound.less difference)
    return .bool
      (if (Number.double x).equals (.double y) then true
      else if x.isInfinite || y.isInfinite then false
      else within (tolerance.mul y).abs || within (tolerance.mul x).abs)
  | _ => none

/-- The integer that a rounding of exact values gives. -/
def toInteger (f : Rat → Int) : List Value → Option Value
  | [v] => do
    match ← v.asNumber? with
    | .int n => return .int n
    | .double x => return .int (f (← x.toRat?))
  | _ => none

/-- The magnitude of a number, of its own kind. -/
def magnitude : List Value → Option Value
  | [v] => do
    match ← v.asNumber? with
    | .int n => return .int n.natAbs
    | .double x => return .double x.abs
  | _ => none

/-- The length of the vector of the arguments. -/
def hypotenuse (args : List Value) : Option Value := do
  return .double (Double.vectorLength (← args.mapM double?))

/-- The distance between two points of equally many coordinates. -/
def distance : List Value → Option Value
  | [v, w] => do
    let p ← (← members? v).mapM double?
    let q ← (← members? w).mapM double?
    if p.length ≠ q.length then none
    else return .double (Double.vectorLength ((p.zip q).map fun (x, y) => x.sub y))
  | _ => none

end SceneTemplates.Real
