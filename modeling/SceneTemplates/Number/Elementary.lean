import SceneTemplates.Number.Gamma

/-!
# Elementary functions

Functions of doubles whose values come from the mathematical functions of the platform.
-/
namespace SceneTemplates.Double

/-- A function of the platform as one of doubles. -/
def lift (f : Float → Float) (x : Double) : Double :=
  if x.isNaN then carried x x else ofFloat (f x.toFloat)

/-- `exp x - 1` without cancellation near zero. -/
def expMinusOne (x : Float) : Float :=
  let u := x.exp
  if x == 0.0 || u == 1.0 then x
  else if u - 1.0 == -1.0 then -1.0
  else if u.isInf || x.abs > 1.0 then u - 1.0
  else (u - 1.0) * x / u.log

/-- `log (1 + x)` without cancellation near zero. -/
def logOnePlus (x : Float) : Float :=
  let u := 1.0 + x
  if u == 1.0 || x.isInf then (if x == -1.0 / 0.0 then 0.0 / 0.0 else x)
  else u.log * (x / (u - 1.0))

def sin : Double → Double := lift Float.sin
def cos : Double → Double := lift Float.cos
def tan : Double → Double := lift Float.tan
def asin : Double → Double := lift Float.asin
def acos : Double → Double := lift Float.acos
def atan : Double → Double := lift Float.atan
def sinh : Double → Double := lift Float.sinh
def cosh : Double → Double := lift Float.cosh
def tanh : Double → Double := lift Float.tanh
def asinh : Double → Double := lift Float.asinh
def acosh : Double → Double := lift Float.acosh
def atanh : Double → Double := lift Float.atanh
def exp : Double → Double := lift Float.exp
def exp2 : Double → Double := lift Float.exp2
def expm1 : Double → Double := lift expMinusOne
def log : Double → Double := lift Float.log
def log2 : Double → Double := lift Float.log2
def log10 : Double → Double := lift Float.log10
def log1p : Double → Double := lift logOnePlus
def cbrt : Double → Double := lift Float.cbrt
def erf : Double → Double := lift errorFloat
def erfc : Double → Double := lift errorComplementFloat
def gamma : Double → Double := lift gammaFloat
def lgamma : Double → Double := lift logGammaFloat

/-- The angle of a point. What is no number here has the positive sign. -/
def atan2 (y x : Double) : Double :=
  if x.isNaN || y.isNaN then .nan false .fresh else ofFloat (Float.atan2 y.toFloat x.toFloat)

def pi : Double := ofMagnitude false (3141592653589793238 * DecimalForm.tenPow (-18))

def tau : Double := ofMagnitude false (6283185307179586476 * DecimalForm.tenPow (-18))

/-- The base of the natural logarithm. -/
def e : Double := ofMagnitude false (2718281828459045235 * DecimalForm.tenPow (-18))

/-- From radians to degrees. -/
def degrees (x : Double) : Double := x.mul ((ofMagnitude false 180).div pi)

/-- From degrees to radians. -/
def radians (x : Double) : Double := x.mul (pi.div (ofMagnitude false 180))

end SceneTemplates.Double
