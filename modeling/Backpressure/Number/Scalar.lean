import Backpressure.Number.Decimal
import Backpressure.Trend.LeastSquares

/-!
# The numbers that forecasts are computed with

* `Scalar K` : arithmetic with order, rounding, square root, the text of a number and a solver for least squares;
* the instance of `Float` : the solver reads the observations as the rationals they denote, finds the line exactly and
  rounds its two coefficients once.
-/

namespace Backpressure.Number

/-- Numbers that forecasts are computed with. -/
class Scalar (K : Type) extends Arithmetic K where
  /-- Whether one number is less than another. -/
  lt : K → K → Bool
  /-- Whether two numbers are equal; NaN is equal to no number. -/
  eq : K → K → Bool
  /-- Whether a number is neither infinite nor NaN. -/
  isFinite : K → Bool
  /-- The integer nearest to a finite number, of two equally near the even one. -/
  round : K → Int
  /-- The square root of a number that is not negative. -/
  sqrt : K → K
  /-- A number as messages show it. -/
  text : K → String
  /-- A number with one digit after the point. -/
  tenths : K → String
  /-- The line of least squares with a penalty on its slope. -/
  leastSquares : K → List (K × K) → Trend.Line K

namespace Scalar

variable {K : Type} [Scalar K]

def zero : K := Arithmetic.ofInt 0

def one : K := Arithmetic.ofInt 1

/-- Whether a number is not even equal to itself. -/
def isNaN (x : K) : Bool := !eq x x

end Scalar

instance : Arithmetic Float where
  ratio := Binary64.ratio
  isZero x := x == 0

instance : Scalar Float where
  lt x y := x < y
  eq x y := x == y
  isFinite := Float.isFinite
  round x := roundEven (Binary64.exact x)
  sqrt := Float.sqrt
  text := Decimal.shortest
  tenths := Decimal.fixed 1
  leastSquares penalty points :=
    let exactly := points.map fun p => (Binary64.exact p.1, Binary64.exact p.2)
    (Trend.Line.leastSquares (Binary64.exact penalty) exactly).map Binary64.nearest

end Backpressure.Number
