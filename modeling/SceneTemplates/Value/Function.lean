import SceneTemplates.Text.Basic

/-!
# Functions as values

A function is one of the global functions or one that the host brings with its data. Two host
functions are the same only if they are the same object of the data.
-/
namespace SceneTemplates

/-- The functions every expression can call. -/
inductive GlobalFunction where
  | abs | acos | acosh | asin | asinh | atan | atan2 | atanh | cbrt | ceil | comb | copysign
  | cos | cosh | degrees | dist | erf | erfc | exp | exp2 | expm1 | fabs | factorial | floor
  | fmod | frexp | fsum | gamma | gcd | hypot | isclose | isfinite | isinf | isnan | isqrt | lcm
  | ldexp | lgamma | log | log10 | log1p | log2 | max | min | modf | nextafter | perm | pow
  | prod | radians | remainder | round | sin | sinh | sqrt | tan | tanh | trunc | ulp
  deriving DecidableEq

namespace GlobalFunction

/-- All global functions, sorted by name. -/
def all : List GlobalFunction :=
  [.abs, .acos, .acosh, .asin, .asinh, .atan, .atan2, .atanh, .cbrt, .ceil, .comb, .copysign,
   .cos, .cosh, .degrees, .dist, .erf, .erfc, .exp, .exp2, .expm1, .fabs, .factorial, .floor,
   .fmod, .frexp, .fsum, .gamma, .gcd, .hypot, .isclose, .isfinite, .isinf, .isnan, .isqrt, .lcm,
   .ldexp, .lgamma, .log, .log10, .log1p, .log2, .max, .min, .modf, .nextafter, .perm, .pow,
   .prod, .radians, .remainder, .round, .sin, .sinh, .sqrt, .tan, .tanh, .trunc, .ulp]

/-- The name a function is called by. -/
def name : GlobalFunction → String
  | .abs => "abs" | .acos => "acos" | .acosh => "acosh" | .asin => "asin" | .asinh => "asinh"
  | .atan => "atan" | .atan2 => "atan2" | .atanh => "atanh" | .cbrt => "cbrt" | .ceil => "ceil"
  | .comb => "comb" | .copysign => "copysign" | .cos => "cos" | .cosh => "cosh"
  | .degrees => "degrees" | .dist => "dist" | .erf => "erf" | .erfc => "erfc" | .exp => "exp"
  | .exp2 => "exp2" | .expm1 => "expm1" | .fabs => "fabs" | .factorial => "factorial"
  | .floor => "floor" | .fmod => "fmod" | .frexp => "frexp" | .fsum => "fsum"
  | .gamma => "gamma" | .gcd => "gcd" | .hypot => "hypot" | .isclose => "isclose"
  | .isfinite => "isfinite" | .isinf => "isinf" | .isnan => "isnan" | .isqrt => "isqrt"
  | .lcm => "lcm" | .ldexp => "ldexp" | .lgamma => "lgamma" | .log => "log" | .log10 => "log10"
  | .log1p => "log1p" | .log2 => "log2" | .max => "max" | .min => "min" | .modf => "modf"
  | .nextafter => "nextafter" | .perm => "perm" | .pow => "pow" | .prod => "prod"
  | .radians => "radians" | .remainder => "remainder" | .round => "round" | .sin => "sin"
  | .sinh => "sinh" | .sqrt => "sqrt" | .tan => "tan" | .tanh => "tanh" | .trunc => "trunc"
  | .ulp => "ulp"

theorem mem_all (f : GlobalFunction) : f ∈ all := by cases f <;> decide

end GlobalFunction

/-- A global function, or a host function with the identity of its object. -/
inductive Function where
  | builtin (f : GlobalFunction)
  | host (identity : Nat) (name : Text)
  deriving DecidableEq

namespace Function

/-- The text form of a function. -/
def shown : Function → Text
  | .builtin f => "<built-in function " ++ Text.ofString f.name ++ ">"
  | .host _ name => "<fn " ++ name ++ ">"

end Function

end SceneTemplates
