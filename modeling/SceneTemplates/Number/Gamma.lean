import SceneTemplates.Number.Power

/-!
# Gamma and error functions

The gamma function and its logarithm by Lanczos' formula, with reflection for negative
arguments; the error function by its series near zero and by a continued fraction elsewhere.
-/
namespace SceneTemplates.Double

namespace Lanczos

def g : Float := 6.024680040776729583740234375

def gMinusHalf : Float := 5.524680040776729583740234375

/-- The coefficients of numerator and denominator, from the constant term upward. -/
def coefficients : List (Float × Float) :=
  [(23531376880.410759688572007674451636754734846804940, 0.0),
   (42919803642.649098768957899047001988850926355848959, 39916800.0),
   (35711959237.355668049440185451547166705960488635843, 120543840.0),
   (17921034426.037209699919755754458931112671403265390, 150917976.0),
   (6039542586.3520280050642916443072979210699388420708, 105258076.0),
   (1439720407.3117216736632230727949123939715485786372, 45995730.0),
   (248874557.86205415651146038641322942321632125127801, 13339535.0),
   (31426415.585400194380614231628318205362874684987640, 2637558.0),
   (2876370.6289353724412254090516208496135991145378768, 357423.0),
   (186056.26539522349504029498971604569928220784236328, 32670.0),
   (8071.6720023658162106380029022722506138218516325024, 1925.0),
   (210.82427775157934587250973392071336271166969580291, 66.0),
   (2.5066282746310002701649081771338373386264310793408, 1.0)]

/-- The quotient of the two polynomials; large arguments use their inverse. -/
def sum (x : Float) : Float :=
  let (num, den) :=
    if x < 5.0 then
      coefficients.foldr (fun c s => (s.1 * x + c.1, s.2 * x + c.2)) (0.0, 0.0)
    else
      coefficients.foldl (fun s c => (s.1 / x + c.1, s.2 / x + c.2)) (0.0, 0.0)
  num / den

end Lanczos

def circleNumber : Float := 3.141592653589793

/-- The sine of a multiple of the circle number. -/
def sinPi (x : Float) : Float :=
  let y := x.abs - 2.0 * (x.abs / 2.0).floor
  let n := (2.0 * y).round
  let r :=
    if n == 0.0 then (circleNumber * y).sin
    else if n == 1.0 then (circleNumber * (y - 0.5)).cos
    else if n == 2.0 then (circleNumber * (1.0 - y)).sin
    else if n == 3.0 then -((circleNumber * (y - 1.5)).cos)
    else (circleNumber * (y - 2.0)).sin
  if x < 0.0 then -r else r

/-- The logarithm of the magnitude of the gamma function. At its poles it is infinite. -/
def logGammaFloat (x : Float) : Float :=
  if x.isNaN then x
  else if x.isInf then x.abs
  else if x == x.floor && x ≤ 2.0 then
    if x ≤ 0.0 then 1.0 / 0.0 else 0.0
  else if x.abs < 1e-20 then -(x.abs.log)
  else
    let size := x.abs
    let r := (Lanczos.sum size).log - Lanczos.g
    let r := r + (size - 0.5) * ((size + Lanczos.g - 0.5).log - 1.0)
    if x < 0.0 then circleNumber.log - (sinPi size).abs.log - size.log - r else r

/-- The gamma function. At zero it is infinite, at the negative integers no number. -/
def gammaFloat (x : Float) : Float :=
  if x.isNaN then x
  else if x.isInf then (if x > 0.0 then x else 0.0 / 0.0)
  else if x == 0.0 then 1.0 / x
  else if x == x.floor && x < 0.0 then 0.0 / 0.0
  else if x == x.floor && x ≤ 23.0 then
    Float.ofNat ((List.range (x.toUInt64.toNat - 1)).foldl (fun p i => p * (i + 1)) 1)
  else
    let size := x.abs
    if size < 1e-20 then 1.0 / x
    else if size > 200.0 then (if x < 0.0 then 0.0 / sinPi x else 1.0 / 0.0)
    else
      let y := size + Lanczos.gMinusHalf
      let z :=
        if size > Lanczos.gMinusHalf then (y - size) - Lanczos.gMinusHalf
        else (y - Lanczos.gMinusHalf) - size
      let z := z * Lanczos.g / y
      let small := size < 140.0
      let power := if small then y.pow (size - 0.5) else y.pow (size / 2.0 - 0.25)
      if x < 0.0 then
        let r := -circleNumber / sinPi size / size * y.exp / Lanczos.sum size
        let r := r - z * r
        if small then r / power else r / power / power
      else
        let r := Lanczos.sum size / y.exp
        let r := r + z * r
        if small then r * power else r * power * power

def rootOfCircleNumber : Float := 1.772453850905516

/-- The error function by its series, for small arguments. -/
def errorSeries (x : Float) : Float :=
  let square := x * x
  let (sum, _) := (List.range 25).foldl
    (fun (s : Float × Float) _ => (2.0 + square * s.1 / s.2, s.2 - 1.0)) (0.0, 25.5)
  sum * x * (-square).exp / rootOfCircleNumber

/-- The complementary error function by a continued fraction, for positive arguments that are not
small. -/
def errorFraction (x : Float) : Float :=
  if x ≥ 30.0 then 0.0
  else
    let square := x * x
    let step := fun (s : Float × Float × Float × Float × Float × Float) (_ : Nat) =>
      let (a, da, p, pLast, q, qLast) := s
      let a := a + da
      let da := da + 2.0
      let b := da + square
      (a, da, b * p - a * pLast, p, b * q - a * qLast, q)
    let (_, _, p, _, q, _) := (List.range 50).foldl step (0.0, 0.5, 1.0, 0.0, 0.5 + square, 1.0)
    p / q * x * (-square).exp / rootOfCircleNumber

def errorFloat (x : Float) : Float :=
  if x.isNaN then x
  else if x.abs < 1.5 then errorSeries x
  else if x > 0.0 then 1.0 - errorFraction x
  else errorFraction x.abs - 1.0

def errorComplementFloat (x : Float) : Float :=
  if x.isNaN then x
  else if x.abs < 1.5 then 1.0 - errorSeries x
  else if x > 0.0 then errorFraction x.abs
  else 2.0 - errorFraction x.abs

end SceneTemplates.Double
