import SceneTemplates.Number.Double

/-!
# Exact sums

A sum of doubles that is rounded once. It is kept as partial sums that do not overlap: adding a term
passes it through them from the smallest on, and what a rounding loses stays behind as a partial sum
of its own. So nothing is lost, unless a rounding passes the range of doubles.
-/
namespace SceneTemplates

/-- The state of a sum: the partial sums since the last special term, the smallest first; the sum of
the infinities; and the sum of all special terms, if there were any. -/
structure ExactSum where
  partials : List Double
  infinities : Double
  specials : Double
  hasSpecial : Bool

namespace ExactSum

def empty : ExactSum := ⟨[], .zero false, .zero false, false⟩

/-- The rounded sum of two numbers, and what the rounding loses. -/
def addExactly (x y : Double) : Double × Double :=
  let (large, small) := if x.abs.less y.abs then (y, x) else (x, y)
  let rounded := large.add small
  (rounded, small.sub (rounded.sub large))

/-- Passes a number through partial sums: those that are left, and the largest one. -/
def distill (x : Double) : List Double → List Double × Double
  | [] => ([], x)
  | y :: rest =>
    let (rounded, lost) := addExactly x y
    let (left, largest) := distill rounded rest
    (if lost.isZero then left else lost :: left, largest)

/-- Adds a term. The partial sums must stay within the range of doubles. -/
def add? (s : ExactSum) (x : Double) : Option ExactSum :=
  if x.isFinite then
    let (left, largest) := distill x s.partials
    if !largest.isFinite then none
    else some { s with partials := if largest.isZero then left else left ++ [largest] }
  else
    some ⟨[], if x.isInfinite then s.infinities.add x else s.infinities, s.specials.add x, true⟩

/-- The exact value of the finite terms since the last special one. -/
def value (s : ExactSum) : Rat := (s.partials.filterMap Double.toRat?).foldl (· + ·) 0

/-- The sum, rounded once. Infinities of both signs have none. -/
def result? (s : ExactSum) : Option Double :=
  if s.hasSpecial then (if s.infinities.isNaN then none else some s.specials)
  else some (Double.ofRat s.value)

def sum? (terms : List Double) : Option Double := do (← terms.foldlM add? empty).result?

end ExactSum

end SceneTemplates
