import SceneTemplates.Number.Layout

/-!
# Numbers

A number is an exact integer of any size or a double. Integers stay exact among themselves; an
operation with a double converts the integer first, which fails when the integer is beyond the
finite doubles. Order and equality compare exact values, without conversion.
-/
namespace SceneTemplates

inductive Number where
  | int (n : Int)
  | double (x : Double)
  deriving DecidableEq

/-- Why an operation has no result. -/
inductive ArithmeticFault where
  | overflow
  | divisionByZero
  /-- The result is not a real number. -/
  | notReal
  deriving DecidableEq

namespace Number

instance : Inhabited Number := ⟨.int 0⟩

/-- The nearest double; an integer beyond the finite ones has none. -/
def toDouble : Number → Except ArithmeticFault Double
  | .double x => .ok x
  | .int n =>
    match Double.ofInt? n with
    | some x => .ok x
    | none => .error .overflow

/-- The place on the line; not a number has none. -/
def toExtended? : Number → Option ExtendedRat
  | .int n => some (.rational n)
  | .double x => x.toExtended?

/-- Order of exact values; false when either side is not a number. -/
def less (a b : Number) : Bool :=
  match a.toExtended?, b.toExtended? with
  | some x, some y => x.less y
  | _, _ => false

/-- Equality of exact values; not a number equals nothing. -/
def equals (a b : Number) : Bool :=
  match a.toExtended?, b.toExtended? with
  | some x, some y => decide (x = y)
  | _, _ => false

@[simp] theorem equals_self_iff (n : Number) :
    n.equals n = true ↔ n.toExtended?.isSome = true := by
  unfold equals
  cases n.toExtended? <;> simp

/-- Less or equal; false when either side is not a number. -/
def atMost (a b : Number) : Bool := a.less b || a.equals b

def isZero : Number → Bool
  | .int n => n == 0
  | .double x => x.isZero

def isNaN : Number → Bool
  | .int _ => false
  | .double x => x.isNaN

/-- An integer beyond the finite doubles counts as an infinity. -/
def collapse : Number → Number
  | .int n =>
    if Double.maxFinite < n then .double (.infinity false)
    else if n < -Double.maxFinite then .double (.infinity true)
    else .int n
  | x => x

/-- An operation that is exact on integers and rounded on doubles. -/
def combine (onInts : Int → Int → Int) (onDoubles : Double → Double → Double) :
    Number → Number → Except ArithmeticFault Number
  | .int a, .int b => .ok (.int (onInts a b))
  | a, b => do return .double (onDoubles (← a.toDouble) (← b.toDouble))

def add : Number → Number → Except ArithmeticFault Number := combine (· + ·) Double.add

def sub : Number → Number → Except ArithmeticFault Number := combine (· - ·) Double.sub

def mul : Number → Number → Except ArithmeticFault Number := combine (· * ·) Double.mul

def neg : Number → Number
  | .int n => .int (-n)
  | .double x => .double x.neg

/-- The quotient as a double. That of two integers is rounded once, from the exact quotient. -/
def quotient : Number → Number → Except ArithmeticFault Double
  | .int a, .int b =>
    if b = 0 then .error .divisionByZero
    else
      match Double.ofMagnitude (decide (a < 0) != decide (b < 0)) (a.natAbs / b.natAbs : Rat) with
      | .infinity _ => .error .overflow
      | x => .ok x
  | a, b => do
    let x ← a.toDouble
    let y ← b.toDouble
    if y.isZero then .error .divisionByZero else .ok (x.div y)

/-- The remainder of doubles; an infinite dividend or a zero divisor has none. -/
def floatRemainder (a b : Number) : Except ArithmeticFault Double := do
  let x ← a.toDouble
  let y ← b.toDouble
  if !x.isNaN && !y.isNaN && (x.isInfinite || y.isZero) then .error .notReal
  else .ok (x.fmod y)

/-- The least number of bits of the magnitude of an integer; zero has none. -/
def bitLength (n : Int) : Nat := if n = 0 then 0 else Nat.log2 n.natAbs + 1

/-- The text of a number in messages: exact digits, or shortest decimals. -/
def shown : Number → Text
  | .int n => Text.ofInt n
  | .double x => NumberLayout.plain.write x

end Number

end SceneTemplates
