import SceneTemplates.Functions.Integer
import SceneTemplates.Functions.Real
import SceneTemplates.Functions.Rounding
import SceneTemplates.Functions.Sequence

/-!
# Global functions applied

Each global function by name with the meaning it has on arguments.
-/
namespace SceneTemplates.GlobalFunction

open Arguments

def apply : GlobalFunction → List Value → CallResult
  | .abs => ofOption ∘ Real.magnitude
  | .acos => ofOption ∘ Real.unary .acos
  | .acosh => ofOption ∘ Real.unary .acosh
  | .asin => ofOption ∘ Real.unary .asin
  | .asinh => ofOption ∘ Real.unary .asinh
  | .atan => ofOption ∘ Real.unary .atan
  | .atan2 => ofOption ∘ Real.binary .atan2
  | .atanh => ofOption ∘ Real.unary .atanh
  | .cbrt => ofOption ∘ Real.unary .cbrt
  | .ceil => ofOption ∘ Real.toInteger Rat.ceil
  | .comb => Integer.combinationsOf
  | .copysign => ofOption ∘ Real.binary .copySign
  | .cos => ofOption ∘ Real.unary .cos
  | .cosh => ofOption ∘ Real.unary .cosh
  | .degrees => ofOption ∘ Real.total .degrees
  | .dist => ofOption ∘ Real.distance
  | .erf => ofOption ∘ Real.unary .erf
  | .erfc => ofOption ∘ Real.unary .erfc
  | .exp => ofOption ∘ Real.unary .exp
  | .exp2 => ofOption ∘ Real.unary .exp2
  | .expm1 => ofOption ∘ Real.unary .expm1
  | .fabs => ofOption ∘ Real.unary .abs
  | .factorial => Integer.factorialOf
  | .floor => ofOption ∘ Real.toInteger Rat.floor
  | .fmod => ofOption ∘ Real.binary .fmod
  | .frexp => ofOption ∘ Real.fractionAndExponent
  | .fsum => ofOption ∘ Sequence.exactSum
  | .gamma => ofOption ∘ Real.unary .gamma
  | .gcd => ofOption ∘ Integer.gcd
  | .hypot => ofOption ∘ Real.hypotenuse
  | .isclose => ofOption ∘ Real.isClose
  | .isfinite => ofOption ∘ Real.test Double.isFinite
  | .isinf => ofOption ∘ Real.test Double.isInfinite
  | .isnan => ofOption ∘ Real.test Double.isNaN
  | .isqrt => ofOption ∘ Integer.squareRoot
  | .lcm => ofOption ∘ Integer.lcm
  | .ldexp => ofOption ∘ Real.scaled
  | .lgamma => ofOption ∘ Real.unary .lgamma
  | .log => ofOption ∘ Real.logarithmOfBase
  | .log10 => ofOption ∘ Real.logarithm .log10
  | .log1p => ofOption ∘ Real.unary .log1p
  | .log2 => ofOption ∘ Real.logarithm .log2
  | .max => ofOption ∘ Sequence.maximum
  | .min => ofOption ∘ Sequence.minimum
  | .modf => ofOption ∘ Real.fractionAndInteger
  | .nextafter => ofOption ∘ Real.totalPair .nextToward
  | .perm => Integer.permutationsOf
  | .pow => ofOption ∘ Real.power
  | .prod => ofOption ∘ Sequence.product
  | .radians => ofOption ∘ Real.total .radians
  | .remainder => ofOption ∘ Real.binary .ieeeRemainder
  | .round => ofOption ∘ Rounding.roundOf
  | .sin => ofOption ∘ Real.unary .sin
  | .sinh => ofOption ∘ Real.unary .sinh
  | .sqrt => ofOption ∘ Real.unary .sqrt
  | .tan => ofOption ∘ Real.unary .tan
  | .tanh => ofOption ∘ Real.unary .tanh
  | .trunc => ofOption ∘ Real.toInteger Double.truncateRat
  | .ulp => ofOption ∘ Real.total .lastPlaceUnit

end SceneTemplates.GlobalFunction
