import SceneTemplates.Functions.Arguments

/-!
# Integer functions

Exact functions on integers. Factorials, combinations and permutations are refused when an
estimate by the logarithm of the gamma function says that the result would have more than 4096
bits.
-/
namespace SceneTemplates.Integer

open Arguments

/-- The most bits of an integer result that is computed exactly. -/
def maxExactBits : Nat := 4096

def gcd (args : List Value) : Option Value := do
  return .int ((← args.mapM integer?).foldl (fun (d : Nat) n => Nat.gcd d n.natAbs) 0 : Nat)

def lcm (args : List Value) : Option Value := do
  return .int ((← args.mapM integer?).foldl (fun (m : Nat) n => Nat.lcm m n.natAbs) 1 : Nat)

/-- The integer part of the square root. -/
def squareRoot : List Value → Option Value
  | [v] => do
    let n ← integer? v
    if n < 0 then none else return .int (Nat.sqrt n.toNat)
  | _ => none

/-- The product `(low + 1) * … * (low + count)`. -/
def risingProduct (low : Nat) : Nat → Nat
  | 0 => 1
  | count + 1 => risingProduct low count * (low + count + 1)

/-- The number of orders of `n` things. -/
def factorial (n : Nat) : Nat := risingProduct 0 n

/-- The number of ordered choices of `k` out of `n` things. -/
def permutations (n k : Nat) : Nat := if n < k then 0 else risingProduct (n - k) k

/-- The number of choices of `k` out of `n` things. -/
def combinations (n k : Nat) : Nat :=
  if n < k then 0
  else
    let few := min k (n - k)
    risingProduct (n - few) few / factorial few

/-- The natural logarithm of two. -/
def logTwo : Double := Double.ofMagnitude false (6931471805599453094 * DecimalForm.tenPow (-19))

/-- An estimate of the bits of a factorial; nothing when it is beyond the doubles. -/
def factorialBits? (logGamma : Double → Double) (n : Int) : Option Double := do
  let x ← Double.ofInt? (n + 1)
  let r := logGamma x
  if r.isInfinite then none else return r.div logTwo

/-- Whether an estimate is over the limit; an estimate beyond the doubles is. -/
def overLimit (estimate : Option Double) : Bool :=
  match estimate with
  | some bits => (Double.ofRat maxExactBits).less bits
  | none => true

/-- The estimate of the bits of a count. -/
def resultBits? (logGamma : Double → Double) (f : GlobalFunction) (n : Int) (k : Option Int) :
    Option Double := do
  let all ← factorialBits? logGamma n
  match f, k with
  | .comb, some k =>
    return (all.sub (← factorialBits? logGamma k)).sub (← factorialBits? logGamma (n - k))
  | .perm, some k => return all.sub (← factorialBits? logGamma (n - k))
  | _, _ => return all

/-- The exact count for arguments in the domain. -/
def count (f : GlobalFunction) (n : Nat) (k : Option Nat) : Nat :=
  match f, k with
  | .comb, some k => combinations n k
  | .perm, some k => permutations n k
  | _, _ => factorial n

/-- A counting function on integers. More things than there are can be chosen in no way, and the
limit holds for the other choices. -/
def bounded (logGamma : Double → Double) (f : GlobalFunction) (n : Int) (k : Option Int) :
    CallResult :=
  let chosen := k.getD 0
  if n < 0 ∨ chosen < 0 then .error .refused
  else if n < chosen then .ok (.int 0)
  else if overLimit (resultBits? logGamma f n k) then .error (.tooLarge f)
  else .ok (.int (count f n.toNat (k.map Int.toNat)))

def factorialOf : List Value → CallResult
  | [v] =>
    match integer? v with
    | some n => bounded .lgamma .factorial n none
    | none => .error .refused
  | _ => .error .refused

def combinationsOf : List Value → CallResult
  | [v, w] =>
    match integer? v, integer? w with
    | some n, some k => bounded .lgamma .comb n (some k)
    | _, _ => .error .refused
  | _ => .error .refused

/-- The number of ordered choices, from arguments; without a second one all are taken. -/
def permutationsOf : List Value → CallResult
  | [v] | [v, .null] =>
    match integer? v with
    | some n => bounded .lgamma .perm n none
    | none => .error .refused
  | [v, w] =>
    match integer? v, integer? w with
    | some n, some k => bounded .lgamma .perm n (some k)
    | _, _ => .error .refused
  | _ => .error .refused

end SceneTemplates.Integer
