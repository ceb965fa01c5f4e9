import SceneTemplates.Number.Double

/-!
# Shortest decimal form

A double is written with the fewest decimal digits that read back as the same double. Among the
decimals of that length the nearest one is taken, and of two the one with the even last digit.
-/
namespace SceneTemplates

/-- A decimal `0.d₁d₂… * 10 ^ point`, given by its digits as one number and the place of the
point. -/
structure DecimalForm where
  digits : Nat
  point : Int
  deriving DecidableEq

namespace DecimalForm

def tenPow (e : Int) : Rat := (10 : Rat) ^ e

def digitCount (n : Nat) : Nat := (Nat.toDigits 10 n).length

/-- The place of the point of a positive number: the power of ten that is above it by less than
a factor of ten. -/
def pointOf (q : Rat) : Int :=
  let guess : Int := digitCount q.num.natAbs - digitCount q.den
  if q < tenPow guess then guess else guess + 1

/-- The numbers that round to one double: two ends, which belong to them or not. -/
structure Interval where
  low : Rat
  high : Rat
  closed : Bool

def Interval.contains (i : Interval) (q : Rat) : Bool :=
  if i.closed then i.low ≤ q && q ≤ i.high else i.low < q && q < i.high

/-- The numbers that round to a positive magnitude. The gap below a power of two is half as
wide, and the ends round to the even significand. -/
def roundingInterval (significand : Nat) (exponent : Int) : Interval :=
  let value := (significand : Rat) * Double.twoPow exponent
  let above := Double.twoPow (exponent - 1)
  let below :=
    if significand = Nat.pow 2 52 ∧ -1074 < exponent then Double.twoPow (exponent - 2) else above
  ⟨value - below, value + above, significand % 2 == 0⟩

/-- The decimal of a number of digits that stands for a value inside an interval: the nearer of
the two neighbours of the value, if it lies in the interval. -/
def ofLength? (value : Rat) (interval : Interval) (point : Int) (length : Nat) :
    Option DecimalForm :=
  let unit := tenPow (point - length)
  let below := (value / unit).floor.toNat
  let candidates := [below, below + 1].filter fun (n : Nat) => interval.contains ((n : Rat) * unit)
  match candidates with
  | [] => none
  | [n] => some ⟨n, point⟩
  | _ => some ⟨(Double.roundHalfEven (value / unit)).toNat, point⟩

/-- The digits without zeros at the end, and the point moved when a carry added a digit. -/
def normalize (length : Nat) (d : DecimalForm) : DecimalForm :=
  let carried := digitCount d.digits - length
  let rec strip : Nat → Nat → Nat
    | 0, n => n
    | fuel + 1, n => if n % 10 = 0 ∧ n ≠ 0 then strip fuel (n / 10) else n
  ⟨strip 20 d.digits, d.point + carried⟩

/-- The first length that has a decimal inside the interval; seventeen digits always do. -/
def search (value : Rat) (interval : Interval) (point : Int) : Nat → Nat → DecimalForm
  | 0, length =>
    normalize length ⟨(Double.roundHalfEven (value / tenPow (point - length))).toNat, point⟩
  | fuel + 1, length =>
    match ofLength? value interval point length with
    | some d => normalize length d
    | none => search value interval point fuel (length + 1)

/-- The shortest decimal of a positive magnitude. -/
def shortest (significand : Nat) (exponent : Int) : DecimalForm :=
  let value := (significand : Rat) * Double.twoPow exponent
  search value (roundingInterval significand exponent) (pointOf value) 16 1

end DecimalForm

end SceneTemplates
