import Backpressure.Number.Arithmetic

/-!
# The line of least squares

* `Line` : slope and intercept;
* `Line.slopeFactor`, `Line.slopeTarget` : the two coefficients of the equation for the slope, from the deviations of
  the observations from their means;
* `Line.leastSquares penalty points` : the line that minimises the squared residuals plus `penalty` times the squared
  slope, in closed form. A penalty of zero is ordinary least squares; where neither the points nor the penalty fix a
  slope the line is horizontal.
-/

namespace Backpressure.Trend
open Number

/-- A line, `intercept` at zero and rising by `slope` per unit. -/
structure Line (K : Type) where
  slope : K
  intercept : K
  deriving DecidableEq

namespace Line

variable {K : Type} [Arithmetic K]

def height (l : Line K) (x : K) : K := l.slope * x + l.intercept

/-- The deviations of both sides of observations from their means. -/
def deviations (points : List (K × K)) : List (K × K) :=
  let meanX := Arithmetic.mean (points.map Prod.fst)
  let meanY := Arithmetic.mean (points.map Prod.snd)
  points.map fun p => (p.1 - meanX, p.2 - meanY)

/-- What the slope is multiplied with in its equation. -/
def slopeFactor (penalty : K) (points : List (K × K)) : K :=
  Arithmetic.sum ((deviations points).map fun d => d.1 * d.1) + penalty

/-- What it is to come to. -/
def slopeTarget (points : List (K × K)) : K := Arithmetic.sum ((deviations points).map fun d => d.1 * d.2)

/-- The line of least squares with a penalty on its slope. -/
def leastSquares (penalty : K) (points : List (K × K)) : Line K :=
  let factor := slopeFactor penalty points
  let slope := if Arithmetic.isZero factor then Arithmetic.ofInt 0 else slopeTarget points / factor
  ⟨slope, Arithmetic.mean (points.map Prod.snd) - slope * Arithmetic.mean (points.map Prod.fst)⟩

/-- The line with every coefficient carried over to other numbers. -/
def map {L : Type} (f : K → L) (l : Line K) : Line L := ⟨f l.slope, f l.intercept⟩

end Line

end Backpressure.Trend
