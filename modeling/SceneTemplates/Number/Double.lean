import SceneTemplates.Identity

/-!
# Double-precision numbers

A double is exact data: a sign, a significand of at most 53 bits and a power of two. Each
finite magnitude has one canonical form, so equal doubles are equal terms, and the two zeros
are apart. Rounding takes any rational number to the nearest double, a tie to the one with the
even significand; every operation that is not exact is defined through it.

What is no number has a sign too. An operation on it gives a new one with the sign of the first
operand that is no number; an operation that has no result for its operands gives a negative one.
-/
namespace SceneTemplates

namespace Double

/-- One form for each magnitude `significand * 2 ^ exponent`: the significand fills 53 bits
unless the exponent is the least one. -/
def Canonical (significand : Nat) (exponent : Int) : Prop :=
  significand < Nat.pow 2 53 ∧ -1074 ≤ exponent ∧ exponent ≤ 971 ∧
    (Nat.pow 2 52 ≤ significand ∨ exponent = -1074)

instance (significand : Nat) (exponent : Int) : Decidable (Canonical significand exponent) :=
  inferInstanceAs (Decidable (_ ∧ _))

theorem canonical_zero : Canonical 0 (-1074) := by decide

end Double

inductive Double where
  /-- Not a number. -/
  | nan (negative : Bool) (identity : Identity)
  | infinity (negative : Bool)
  | finite (negative : Bool) (significand : Nat) (exponent : Int)
      (canonical : Double.Canonical significand exponent)
  deriving DecidableEq

/-- The points of the real line with its two ends. -/
inductive ExtendedRat where
  | bottom
  | rational (q : Rat)
  | top
  deriving DecidableEq

namespace ExtendedRat

def less : ExtendedRat → ExtendedRat → Bool
  | .rational a, .rational b => decide (a < b)
  | .bottom, .bottom => false
  | .bottom, _ => true
  | .rational _, .top => true
  | _, _ => false

end ExtendedRat

namespace Double

/-- The zero of a sign. -/
def zero (negative : Bool) : Double := .finite negative 0 (-1074) canonical_zero

instance : Inhabited Double := ⟨zero false⟩

/-- The constant that stands for what is no number. -/
def undetermined : Double := .nan false .shared

/-- What an operation gives that has no result for its operands. -/
def invalid : Double := .nan true .fresh

/-- The largest finite magnitude. -/
def maxFinite : Int := (Int.pow 2 53 - 1) * Int.pow 2 971

def twoPow (e : Int) : Rat := (2 : Rat) ^ e

/-- The integer nearest to a rational number, the even one of two. -/
def roundHalfEven (q : Rat) : Int :=
  let below := q.floor
  let rest := q - below
  if rest < 1 / 2 then below
  else if 1 / 2 < rest then below + 1
  else if below % 2 = 0 then below
  else below + 1

/-- The exponent of the last place of a positive rational number: 53 bits fit above it, and it
is not below the least exponent of the format. -/
def lastPlace (q : Rat) : Int :=
  let guess : Int := Nat.log2 q.num.natAbs - Nat.log2 q.den
  let leading := if twoPow guess ≤ q then guess else guess - 1
  max (leading - 52) (-1074)

/-- The double of a sign nearest to a magnitude; beyond the largest one it is the infinity. -/
def ofMagnitude (negative : Bool) (q : Rat) : Double :=
  if q = 0 then zero negative
  else
    let exponent := lastPlace q
    let rounded := (roundHalfEven (q / twoPow exponent)).toNat
    let (significand, exponent) :=
      if rounded = Nat.pow 2 53 then (Nat.pow 2 52, exponent + 1) else (rounded, exponent)
    if canonical : Canonical significand exponent then
      .finite negative significand exponent canonical
    else .infinity negative

/-- The double nearest to a rational number. -/
def ofRat (q : Rat) : Double := ofMagnitude (decide (q < 0)) (if q < 0 then -q else q)

/-- The double nearest to an integer, unless that is beyond the finite ones. -/
def ofInt? (n : Int) : Option Double :=
  match ofRat n with
  | .infinity _ => none
  | x => some x

/-- The sign bit. -/
def isNegative : Double → Bool
  | .nan negative _ => negative
  | .infinity negative => negative
  | .finite negative _ _ _ => negative

def isNaN : Double → Bool
  | .nan _ _ => true
  | _ => false

def isInfinite : Double → Bool
  | .infinity _ => true
  | _ => false

def isFinite : Double → Bool
  | .finite _ _ _ _ => true
  | _ => false

/-- The exact value of a finite double. -/
def toRat? : Double → Option Rat
  | .finite negative significand exponent _ =>
    let magnitude := (significand : Rat) * twoPow exponent
    some (if negative then -magnitude else magnitude)
  | _ => none

/-- The place of a double on the line; not a number has none. -/
def toExtended? : Double → Option ExtendedRat
  | .nan _ _ => none
  | .infinity true => some .bottom
  | .infinity false => some .top
  | .finite negative significand exponent _ =>
    let magnitude := (significand : Rat) * twoPow exponent
    some (.rational (if negative then -magnitude else magnitude))

@[simp] theorem toExtended?_eq_rational {x : Double} {q : Rat} :
    x.toExtended? = some (.rational q) ↔ x.toRat? = some q := by
  rcases x with _ | ⟨_ | _⟩ | _ <;> simp [toExtended?, toRat?]

def isIntegral (x : Double) : Bool :=
  match x.toRat? with
  | some q => q.den == 1
  | none => false

/-- Whether the value is zero, of either sign. -/
def isZero : Double → Bool
  | .finite _ significand _ _ => significand == 0
  | _ => false

def neg : Double → Double
  | .nan negative _ => .nan (!negative) .fresh
  | .infinity negative => .infinity (!negative)
  | .finite negative significand exponent canonical =>
    .finite (!negative) significand exponent canonical

def abs : Double → Double
  | .nan _ _ => .nan false .fresh
  | .infinity _ => .infinity false
  | .finite _ significand exponent canonical => .finite false significand exponent canonical

/-- The magnitude of a number with the sign of another. -/
def copySign (x sign : Double) : Double := if sign.isNegative then x.abs.neg else x.abs

/-- The result of an operation on two doubles one of which is no number. -/
def carried (x y : Double) : Double :=
  .nan (if x.isNaN then x.isNegative else y.isNegative) .fresh

/-- The sum of exact values, rounded. A sum of zero is positive unless both terms carry the
minus sign. -/
def add (x y : Double) : Double :=
  match x.toRat?, y.toRat? with
  | some a, some b =>
    if a + b = 0 then zero (x.isNegative && y.isNegative) else ofRat (a + b)
  | _, _ =>
    if x.isNaN || y.isNaN then carried x y
    else
      match x, y with
      | .infinity a, .infinity b => if a = b then x else invalid
      | .infinity _, _ => x
      | _, _ => y

/-- The difference is the sum with the other sign. -/
def sub (x y : Double) : Double := if y.isNaN then carried x y else x.add y.neg

/-- The product of exact values, rounded. -/
def mul (x y : Double) : Double :=
  let negative := x.isNegative != y.isNegative
  match x.abs.toRat?, y.abs.toRat? with
  | some a, some b => ofMagnitude negative (a * b)
  | _, _ =>
    if x.isNaN || y.isNaN then carried x y
    else if x.isZero || y.isZero then invalid
    else .infinity negative

/-- The quotient of exact values, rounded. A zero divisor gives an infinity, or no number when
the dividend is zero too. -/
def div (x y : Double) : Double :=
  let negative := x.isNegative != y.isNegative
  match x.abs.toRat?, y.abs.toRat? with
  | some a, some b =>
    if b = 0 then (if a = 0 then invalid else .infinity negative)
    else ofMagnitude negative (a / b)
  | a, b =>
    if x.isNaN || y.isNaN then carried x y
    else if b.isSome then .infinity negative
    else if a.isSome then zero negative
    else invalid

/-- The integer part of a rational number, toward zero. -/
def truncateRat (q : Rat) : Int := if q < 0 then q.ceil else q.floor

/-- The remainder of a division toward zero, exact, with the sign of the dividend. -/
def fmod (x y : Double) : Double :=
  match x.toRat?, y.toRat? with
  | some a, some b =>
    if b = 0 then invalid
    else
      let rest := a - truncateRat (a / b) * b
      ofMagnitude x.isNegative (if rest < 0 then -rest else rest)
  | a, _ => if x.isNaN || y.isNaN then carried x y else if a.isSome then x else invalid

/-- The remainder of a division to the nearest integer, the even one of two. -/
def ieeeRemainder (x y : Double) : Double :=
  match x.toRat?, y.toRat? with
  | some a, some b =>
    if b = 0 then invalid
    else
      let rest := a - roundHalfEven (a / b) * b
      if rest = 0 then zero x.isNegative else ofRat rest
  | a, _ => if x.isNaN || y.isNaN then carried x y else if a.isSome then x else invalid

/-- Order on numbers: false when either is not a number. -/
def less (x y : Double) : Bool :=
  match x.toExtended?, y.toExtended? with
  | some a, some b => a.less b
  | _, _ => false

/-- The product with a power of two, rounded. -/
def scale (x : Double) (power : Int) : Double :=
  match x with
  | .finite negative significand exponent _ =>
    if significand = 0 then x
    else if 2200 < power then .infinity negative
    else if power < -2200 then zero negative
    else ofMagnitude negative ((significand : Rat) * twoPow (exponent + power))
  | .infinity _ => x
  | .nan _ _ => carried x x

/-- A fraction at least one half and below one, and the power of two to multiply it with. -/
def split (x : Double) : Double × Int :=
  match x with
  | .finite _ significand exponent _ =>
    if significand = 0 then (x, 0)
    else
      let bits : Int := Nat.log2 significand + 1
      (x.scale (-(exponent + bits)), exponent + bits)
  | _ => (x.scale 0, 0)

/-- The number after a finite magnitude, away from zero. -/
def succMagnitude (negative : Bool) (significand : Nat) (exponent : Int) : Double :=
  ofMagnitude negative (((significand : Rat) + 1) * twoPow exponent)

/-- The number before a finite magnitude, toward zero. -/
def predMagnitude (negative : Bool) (significand : Nat) (exponent : Int) : Double :=
  if significand = Nat.pow 2 52 ∧ -1074 < exponent then
    ofMagnitude negative (((2 * significand : Nat) - 1 : Rat) * twoPow (exponent - 1))
  else ofMagnitude negative (((significand : Rat) - 1) * twoPow exponent)

/-- The neighbour of a number in the direction of another. -/
def nextToward (x y : Double) : Double :=
  if x.isNaN || y.isNaN then carried y x
  else if x.toExtended? = y.toExtended? then y
  else
    match x with
    | .finite negative significand exponent _ =>
      if significand = 0 then .ofMagnitude y.isNegative (twoPow (-1074))
      else if x.less y != negative then succMagnitude negative significand exponent
      else predMagnitude negative significand exponent
    | .infinity negative => .ofMagnitude negative maxFinite
    | .nan _ _ => carried y x

/-- The distance to the next larger magnitude; that of an infinity is infinite. -/
def lastPlaceUnit : Double → Double
  | .nan negative _ => .nan negative .fresh
  | .infinity _ => .infinity false
  | .finite _ _ exponent _ => .ofMagnitude false (twoPow exponent)

/-- The double nearest to the square root of a rational number. The root is taken to more than
a hundred bits beyond the last place and its lost part kept as one more digit, so that the
rounding sees on which side of a tie the root lies. -/
def sqrtRat (q : Rat) : Double :=
  if q ≤ 0 then zero false
  else
    let half : Int := (Nat.log2 q.num.natAbs - Nat.log2 q.den : Int) / 2 - 110
    let scaled := q / twoPow (2 * half)
    let root := Nat.sqrt scaled.floor.toNat
    let exact := ((root : Rat) * root == scaled)
    ofMagnitude false ((if exact then (root : Rat) else (root : Rat) + 1 / 2) * twoPow half)

/-- The square root; that of a negative number is no number. -/
def sqrt (x : Double) : Double :=
  match x with
  | .finite negative significand exponent _ =>
    if significand = 0 then x
    else if negative then invalid
    else sqrtRat ((significand : Rat) * twoPow exponent)
  | .infinity negative => if negative then invalid else x
  | .nan _ _ => carried x x

end Double

end SceneTemplates
