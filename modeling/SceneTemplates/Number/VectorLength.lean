import SceneTemplates.Number.Double

/-!
# Lengths of vectors

The length of a vector is the root of the sum of its squares. The coordinates are brought below one
by a power of two, each square is split into parts that are exact, and what a rounding of the sum
loses is collected beside it; the root is then corrected by what is left of the sum. So the length
is the nearest double in nearly all cases. Below the normal range the coordinates are divided by the
largest one instead.
-/
namespace SceneTemplates

/-- A sum of squares, one too large, with the losses of its roundings in three parts. -/
structure SquareSum where
  sum : Double
  highLoss : Double
  middleLoss : Double
  lowLoss : Double

namespace SquareSum

def one : Double := .ofMagnitude false 1

def two : Double := .ofMagnitude false 2

/-- No squares yet. -/
def empty : SquareSum := ⟨one, .zero false, .zero false, .zero false⟩

/-- What the rounding of `sum + x` to `rounded` loses, added to earlier losses. -/
def lose (loss sum rounded x : Double) : Double := loss.add ((sum.sub rounded).add x)

def addHigh (s : SquareSum) (x : Double) : SquareSum :=
  let rounded := s.sum.add x
  { s with sum := rounded, highLoss := lose s.highLoss s.sum rounded x }

def addMiddle (s : SquareSum) (x : Double) : SquareSum :=
  let rounded := s.sum.add x
  { s with sum := rounded, middleLoss := lose s.middleLoss s.sum rounded x }

def addLow (s : SquareSum) (x : Double) : SquareSum :=
  let rounded := s.sum.add x
  { s with sum := rounded, lowLoss := lose s.lowLoss s.sum rounded x }

/-- The two halves of the digits of a number. -/
def halves (x : Double) : Double × Double :=
  let wide := x.mul (.ofMagnitude false 134217729)
  let high := wide.sub (wide.sub x)
  (high, x.sub high)

/-- Adds the square of a number below one. -/
def addSquare (s : SquareSum) (x : Double) : SquareSum :=
  let (high, low) := halves x
  let s := (s.addHigh (high.mul high)).addMiddle ((two.mul high).mul low)
  { s with lowLoss := s.lowLoss.add (low.mul low) }

/-- Takes the square of a number away. -/
def subSquare (s : SquareSum) (x : Double) : SquareSum :=
  let (high, low) := halves x
  ((s.addHigh (high.neg.mul high)).addMiddle ((two.neg.mul high).mul low)).addLow (low.neg.mul low)

/-- The sum of the squares. -/
def value (s : SquareSum) : Double :=
  (s.sum.sub one).add ((s.highLoss.add s.middleLoss).add s.lowLoss)

/-- The root of the sum, corrected once. -/
def root (s : SquareSum) : Double :=
  let guess := s.value.sqrt
  guess.add ((s.subSquare guess).value.div (two.mul guess))

end SquareSum

namespace Double

/-- The least exponent of a largest coordinate by which the others can be scaled. -/
def leastScalable : Int := -1023

/-- The length of a vector with finite coordinates, at least two, whose largest one is not zero. -/
def finiteLength (coordinates : List Double) (largest : Double) : Double :=
  let exponent := largest.split.2
  if leastScalable ≤ exponent then
    let scale := ofMagnitude false (twoPow (-exponent))
    (coordinates.foldl (fun s x => s.addSquare (x.mul scale)) SquareSum.empty).root.div scale
  else
    let s := coordinates.foldl (fun s x => s.addHigh ((x.div largest).mul (x.div largest)))
      SquareSum.empty
    largest.mul ((s.sum.sub SquareSum.one).add s.highLoss).sqrt

/-- The length of a vector. An infinite coordinate makes it infinite, before any other that is not
a number. -/
def vectorLength (coordinates : List Double) : Double :=
  let magnitudes := coordinates.map abs
  let largest := magnitudes.foldl (fun m x => if m.less x then x else m) (zero false)
  if magnitudes.any isInfinite then .infinity false
  else if magnitudes.any isNaN then .nan false .fresh
  else if largest.isZero || magnitudes.length ≤ 1 then largest
  else finiteLength magnitudes largest

end Double

end SceneTemplates
