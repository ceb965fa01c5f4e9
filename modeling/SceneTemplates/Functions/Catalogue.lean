import SceneTemplates.Functions.Apply

/-!
# The global environment

Every expression sees the global functions and five constants. The catalogue describes each of
them with the library it comes from and a summary.
-/
namespace SceneTemplates

inductive GlobalConstant where
  | e | inf | nan | pi | tau
  deriving DecidableEq

namespace GlobalConstant

/-- All constants, sorted by name. -/
def all : List GlobalConstant := [.e, .inf, .nan, .pi, .tau]

def name : GlobalConstant → String
  | .e => "e" | .inf => "inf" | .nan => "nan" | .pi => "pi" | .tau => "tau"

def value : GlobalConstant → Double
  | .e => Double.e
  | .inf => .infinity false
  | .nan => Double.undetermined
  | .pi => Double.pi
  | .tau => Double.tau

end GlobalConstant

/-- The values of the global environment by name. -/
def globalEnvironment : Entries Value :=
  GlobalFunction.all.map (fun f => (Text.ofString f.name, .function (.builtin f))) ++
    GlobalConstant.all.map fun c => (Text.ofString c.name, .double c.value)

/-- Whether an entry of the catalogue is a function or a constant. -/
inductive EntryKind where
  | function | constant
  deriving DecidableEq

namespace EntryKind

def name : EntryKind → String
  | .function => "function"
  | .constant => "constant"

end EntryKind

/-- The library an entry comes from. -/
inductive EntryOrigin where
  | general | mathematics | own
  deriving DecidableEq

namespace EntryOrigin

def name : EntryOrigin → String
  | .general => "builtins"
  | .mathematics => "math"
  | .own => "scenecraft"

end EntryOrigin

/-- The description of an entry of the global environment. -/
structure CatalogueEntry where
  name : Text
  kind : EntryKind
  origin : EntryOrigin
  summary : Text

namespace GlobalFunction

/-- Where a function comes from and what it does. -/
def description : GlobalFunction → EntryOrigin × String
  | .abs => (.general, "Return the absolute value of the argument.")
  | .acos => (.mathematics, "Return the arc cosine (measured in radians) of x.")
  | .acosh => (.mathematics, "Return the inverse hyperbolic cosine of x.")
  | .asin => (.mathematics, "Return the arc sine (measured in radians) of x.")
  | .asinh => (.mathematics, "Return the inverse hyperbolic sine of x.")
  | .atan => (.mathematics, "Return the arc tangent (measured in radians) of x.")
  | .atan2 => (.mathematics, "Return the arc tangent (measured in radians) of y/x.")
  | .atanh => (.mathematics, "Return the inverse hyperbolic tangent of x.")
  | .cbrt => (.mathematics, "Return the cube root of x.")
  | .ceil => (.mathematics, "Return the ceiling of x as an Integral.")
  | .comb =>
    (.mathematics, "Number of ways to choose k items from n items without repetition " ++
      "and without order.")
  | .copysign =>
    (.mathematics, "Return a float with the magnitude (absolute value) of x " ++
      "but the sign of y.")
  | .cos => (.mathematics, "Return the cosine of x (measured in radians).")
  | .cosh => (.mathematics, "Return the hyperbolic cosine of x.")
  | .degrees => (.mathematics, "Convert angle x from radians to degrees.")
  | .dist => (.mathematics, "Return the Euclidean distance between two points p and q.")
  | .erf => (.mathematics, "Error function at x.")
  | .erfc => (.mathematics, "Complementary error function at x.")
  | .exp => (.mathematics, "Return e raised to the power of x.")
  | .exp2 => (.mathematics, "Return 2 raised to the power of x.")
  | .expm1 => (.mathematics, "Return exp(x)-1.")
  | .fabs => (.mathematics, "Return the absolute value of the float x.")
  | .factorial => (.mathematics, "Find n!.")
  | .floor => (.mathematics, "Return the floor of x as an Integral.")
  | .fmod => (.mathematics, "Return fmod(x, y), according to platform C.")
  | .frexp => (.mathematics, "Return the mantissa and exponent of x, as pair (m, e).")
  | .fsum => (.mathematics, "Return an accurate floating point sum of values in the iterable seq.")
  | .gamma => (.mathematics, "Gamma function at x.")
  | .gcd => (.mathematics, "Greatest Common Divisor.")
  | .hypot => (.mathematics, "hypot(*coordinates) -> value")
  | .isclose => (.mathematics, "Determine whether two floating point numbers are close in value.")
  | .isfinite =>
    (.mathematics, "Return True if x is neither an infinity nor a NaN, " ++
      "and False otherwise.")
  | .isinf =>
    (.mathematics, "Return True if x is a positive or negative infinity, " ++
      "and False otherwise.")
  | .isnan => (.mathematics, "Return True if x is a NaN (not a number), and False otherwise.")
  | .isqrt => (.mathematics, "Return the integer part of the square root of the input.")
  | .lcm => (.mathematics, "Least Common Multiple.")
  | .ldexp => (.mathematics, "Return x * (2**i).")
  | .lgamma => (.mathematics, "Natural logarithm of absolute value of Gamma function at x.")
  | .log => (.mathematics, "log(x, [base=math.e])")
  | .log10 => (.mathematics, "Return the base 10 logarithm of x.")
  | .log1p => (.mathematics, "Return the natural logarithm of 1+x (base e).")
  | .log2 => (.mathematics, "Return the base 2 logarithm of x.")
  | .max => (.general, "max(iterable, *[, default=obj, key=func]) -> value")
  | .min => (.general, "min(iterable, *[, default=obj, key=func]) -> value")
  | .modf => (.mathematics, "Return the fractional and integer parts of x.")
  | .nextafter => (.mathematics, "Return the next floating-point value after x towards y.")
  | .perm =>
    (.mathematics, "Number of ways to choose k items from n items without repetition " ++
      "and with order.")
  | .pow => (.mathematics, "Return x**y (x to the power of y).")
  | .prod => (.mathematics, "Calculate the product of all the elements in the input iterable.")
  | .radians => (.mathematics, "Convert angle x from degrees to radians.")
  | .remainder => (.mathematics, "Difference between x and the closest integer multiple of y.")
  | .round => (.own, "Round half toward positive infinity, like JavaScript's Math.round.")
  | .sin => (.mathematics, "Return the sine of x (measured in radians).")
  | .sinh => (.mathematics, "Return the hyperbolic sine of x.")
  | .sqrt => (.mathematics, "Return the square root of x.")
  | .tan => (.mathematics, "Return the tangent of x (measured in radians).")
  | .tanh => (.mathematics, "Return the hyperbolic tangent of x.")
  | .trunc => (.mathematics, "Truncates the Real x to the nearest Integral toward 0.")
  | .ulp => (.mathematics, "Return the value of the least significant bit of the float x.")

end GlobalFunction

/-- The entries of the global environment, sorted by name. -/
def catalogue : List CatalogueEntry :=
  let functions := GlobalFunction.all.map fun f =>
    CatalogueEntry.mk f.name .function f.description.1 f.description.2
  let constants := GlobalConstant.all.map fun c =>
    CatalogueEntry.mk c.name .constant .mathematics (NumberLayout.plain.write c.value)
  (functions ++ constants).mergeSort fun a b => !Text.precedes b.name a.name

end SceneTemplates
