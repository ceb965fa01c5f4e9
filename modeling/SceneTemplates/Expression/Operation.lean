import SceneTemplates.Expression.Error
import SceneTemplates.Number.Power
import SceneTemplates.Value.Comparison

/-!
# Operations on values

What the operators of expressions do with values. Numbers stay exact integers while they fit the
range of doubles and become infinities beyond it; a division by zero gives an infinity or no
number.
-/
namespace SceneTemplates

namespace Number

/-- The largest number of bits, estimated from the base, for which a power of integers is
computed exactly. -/
def maxPowerBits : Nat := 4096

/-- The quotient: an integer if the division of integers leaves no rest. The tests for what is no
number, and of the sign of a zero, are made on doubles. -/
def divide (a b : Number) : Except ArithmeticFault Number :=
  if b.isZero then
    if a.isZero then .ok (.double .undetermined)
    else do
      let x ← a.toDouble
      if x.isNaN then return .double .undetermined
      else return .double (.infinity (x.isNegative != (← b.toDouble).isNegative))
  else
    match a, b with
    | .int x, .int y =>
      if x % y = 0 then .ok (.int (x / y)) else (quotient a b).map .double
    | _, _ => (quotient a b).map .double

/-- The remainder with the sign of the dividend. -/
def modulo (a b : Number) : Except ArithmeticFault Number :=
  if b.isZero then .ok (.double .undetermined)
  else do
    let x ← a.toDouble
    if x.isNaN then return .double .undetermined
    let y ← b.toDouble
    if y.isNaN || x.isInfinite then return .double .undetermined
    if y.isInfinite then return a
    match a, b with
    | .int m, .int n => return .int (m.tmod n)
    | _, _ => (floatRemainder a b).map .double

/-- Whether an exponent is an odd integer. -/
def isOdd : Number → Bool
  | .int n => n % 2 != 0
  | .double x => x.isOddInteger

/-- The power of two doubles. What is too large, also as a base, is an infinity with the sign of the
power, and what is not real is no number. -/
def powerOfDoubles (a b : Number) : Except ArithmeticFault Number :=
  match a.toDouble >>= fun x => b.toDouble >>= x.pow with
  | .ok r => return .double r
  | .error .divisionByZero => return .double (.infinity false)
  | .error .overflow => do
    -- An exponent without a double has no parity either.
    let _ ← b.toDouble
    return .double (.infinity (a.less (.int 0) && b.isOdd))
  | .error .notReal => return .double .undetermined

/-- The power: exact for integers while the estimate of its bits stays within the limit. -/
def power (a b : Number) : Except ArithmeticFault Number :=
  match a, b with
  | .int x, .int y =>
    if 0 ≤ y ∧ max (bitLength x) 1 * y.toNat ≤ maxPowerBits then
      .ok (Number.collapse (.int (Int.pow x y.toNat)))
    else powerOfDoubles a b
  | _, _ => powerOfDoubles a b

end Number

namespace Value

/-- The number a value is converted to by arithmetic. Functions and objects have none. -/
def toNumber (v : Value) : Except ExpressionCause Number :=
  match v with
  | .bool b => .ok (.int (if b then 1 else 0))
  | .number n => .ok n.collapse
  | .null => .ok (.int 0)
  | .undefined => .ok (.double .undetermined)
  | .text t => .ok (Number.ofText t)
  | _ => .error (.notConvertible v.kind)

/-- An operation on numbers as one on values: the left operand is converted first. -/
def arithmetic (f : Number → Number → Except ArithmeticFault Number) (left right : Value) :
    Except ExpressionCause Value := do
  let a ← left.toNumber
  let b ← right.toNumber
  match f a b with
  | .ok n => .ok (.number n)
  | .error fault => .error (.arithmetic fault)

/-- The sum of numbers, or two texts joined if either side is a text. -/
def plus (left right : Value) : Except ExpressionCause Value :=
  match left, right with
  | .text a, _ => .ok (.text (a ++ right.toText))
  | _, .text b => .ok (.text (left.toText ++ b))
  | _, _ => (arithmetic Number.add left right).map collapse

/-- Equality without conversion. Objects and functions equal only themselves. -/
def strictEquals (left right : Value) : Bool :=
  match left, right with
  | .undefined, .undefined => true
  | .null, .null => true
  | .bool a, .bool b => a == b
  | .number a, .number b => a.equals b
  | .text a, .text b => decide (a = b)
  | a, b => a.sameObject b

/-- A datum is equal to itself, a container as much as a text. Only what is no number is not. -/
theorem strictEquals_identify (next : Nat) {v : Value}
    (hv : ∀ n, v = .number n → n.toExtended?.isSome = true) :
    (v.identify next).1.strictEquals (v.identify next).1 = true := by
  cases v with
  | number n =>
    have hn := hv n rfl
    obtain _ | d := n
    · simp [identify, strictEquals, hn]
    · cases d with
      | nan => cases hn
      | _ => simp [identify, strictEquals, hn]
  | function f => cases f <;> simp [identify, strictEquals, sameObject]
  | bytes _ content =>
    by_cases hc : content.length ≤ 1 <;>
      simp [identify, strictEquals, sameObject, hc, Identity.same]
  | _ => simp [identify, strictEquals, sameObject]

/-- Whether a value is a number, a text or a truth value. -/
def isPrimitive (v : Value) : Bool :=
  match v.kind with
  | .number | .string | .boolean => true
  | _ => false

/-- Equality with conversion between numbers, texts and truth values; null equals undefined. -/
def looseEquals (left right : Value) : Bool :=
  if left.isNullish || right.isNullish then left.isNullish && right.isNullish
  else if left.kind = right.kind then left.strictEquals right
  else if left.isPrimitive && right.isPrimitive then
    match left.toNumber, right.toNumber with
    | .ok a, .ok b => a.equals b
    | _, _ => false
  else false

/-- A relation of order: between two texts by code points, else between numbers. -/
def relation (onTexts : Text → Text → Bool) (onNumbers : Number → Number → Bool)
    (left right : Value) : Except ExpressionCause Value :=
  match left, right with
  | .text a, .text b => .ok (.bool (onTexts a b))
  | _, _ => do
    let a ← left.toNumber
    let b ← right.toNumber
    return .bool (onNumbers a b)

/-- A binary operator on two values. Operators that choose one of their operands are not among
them, and those that no expression may use are an error. -/
def operate (op : BinaryOperator) (left right : Value) : Except ExpressionCause Value :=
  match op with
  | .plus => plus left right
  | .minus => (arithmetic Number.sub left right).map collapse
  | .times => (arithmetic Number.mul left right).map collapse
  | .divide => arithmetic Number.divide left right
  | .modulo => arithmetic Number.modulo left right
  | .power => arithmetic Number.power left right
  | .equal => .ok (.bool (looseEquals left right))
  | .notEqual => .ok (.bool (!looseEquals left right))
  | .strictEqual => .ok (.bool (strictEquals left right))
  | .strictNotEqual => .ok (.bool (!strictEquals left right))
  | .less => relation Text.precedes Number.less left right
  | .lessEqual => relation (fun a b => !Text.precedes b a) Number.atMost left right
  | .greater => relation (fun a b => Text.precedes b a) (fun a b => b.less a) left right
  | .greaterEqual => relation (fun a b => !Text.precedes a b) (fun a b => b.atMost a) left right
  | _ => .error (.binaryOperator op)

/-- A unary operator on a value. -/
def operateUnary (op : UnaryOperator) (v : Value) : Except ExpressionCause Value :=
  match op with
  | .not => .ok (.bool (!v.isTruthy))
  | .plus => do return .number (← v.toNumber)
  | .minus => do return .number (← v.toNumber).neg
  | _ => .error (.unaryOperator op)

/-- A member of a value that is neither null nor undefined. Mappings and host objects have the
members they hold, sequences and texts a length; names with a leading underscore are hidden in
host objects. -/
def property (v : Value) (name : Text) : Value :=
  let size := fun (n : Nat) => if name = "length" then Value.int n else .undefined
  let hidden := name.head? = some '_'.toNat
  match v with
  | .mapping _ entries => (Entries.get? name entries).getD .undefined
  | .text t => size t.length
  | .list _ items => size items.length
  | .tuple items => size items.length
  | .object _ attributes =>
    if hidden then .undefined else (Entries.get? name attributes).getD .undefined
  | .dynamic _ source => if name = "source" then .text source else .undefined
  | .literal _ value => if name = "value" then value else .undefined
  | _ => .undefined

end Value

end SceneTemplates
