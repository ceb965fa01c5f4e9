import SceneTemplates.Functions.Arguments
import SceneTemplates.Number.ExactSum

/-!
# Functions of sequences

Extremes, sums and products of the members of a value, or of the arguments themselves.
-/
namespace SceneTemplates.Sequence

open Arguments

/-- The first of the members that no other one beats. -/
def extreme (beats : Value → Value → Option Bool) : Value → List Value → Option Value
  | best, [] => some best
  | best, v :: rest => do
    if ← beats v best then extreme beats v rest else extreme beats best rest

/-- The extreme of several arguments, or of the members of a single one. -/
def extremeOf (beats : Value → Value → Option Bool) (args : List Value) : Option Value := do
  let candidates ←
    match args with
    | [v] => members? v
    | _ => some args
  match candidates with
  | [] => none
  | first :: rest => extreme beats first rest

/-- The largest, and of equal ones the first. -/
def maximum : List Value → Option Value := extremeOf fun v best => best.less? v

/-- The smallest, and of equal ones the first. -/
def minimum : List Value → Option Value := extremeOf fun v best => v.less? best

/-- The sum of the members, rounded once at the end. -/
def exactSum : List Value → Option Value
  | [v] => do
    return .double (← ExactSum.sum? (← (← members? v).mapM double?))
  | _ => none

/-- The most members a repetition may have. -/
def maxRepetition : Nat := Nat.pow 2 32

/-- Whether a number can count repetitions: it is a signed number of 64 bits. -/
def canCount (n : Int) : Bool := -Int.pow 2 63 ≤ n && n < Int.pow 2 63

/-- A list repeated; a negative count leaves nothing. -/
def repeated {α : Type} (items : List α) (count : Int) : Option (List α) :=
  if !canCount count then none
  else if items.isEmpty then some []
  else if maxRepetition < items.length * count.toNat then none
  else some (List.replicate count.toNat items).flatten

/-- A sequence times an integer. One repetition of a tuple or of bytes is the same object. -/
def repetition (v : Value) (count : Int) : Option Value :=
  match v with
  | .text t => (repeated t count).map .text
  | .list _ items => (repeated items count).map .newList
  | @Value.tuple i items =>
    (repeated items count).map fun result =>
      .tuple (i := if result.length = items.length then i else .fresh) result
  | .bytes identity content =>
    (repeated content count).map fun result =>
      .bytes (if result.length = content.length then identity else .fresh) result
  | _ => none

/-- A product: of numbers, or of a sequence and the number of its repetitions. -/
def times (v w : Value) : Option Value :=
  match v.asNumber?, w.asNumber? with
  | some a, some b => ((a.mul b).toOption).map .number
  | some (.int n), none => repetition w n
  | none, some (.int n) => repetition v n
  | _, _ => none

/-- The product of the members, from one onward. -/
def product : List Value → Option Value
  | [v] => do (← members? v).foldlM times (.int 1)
  | _ => none

end SceneTemplates.Sequence
