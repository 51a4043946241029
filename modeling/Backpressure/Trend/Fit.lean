import Backpressure.Error
import Backpressure.Number.Scalar

/-!
# A line and how well it fits

* `Fit` : a line fitted to observations, with its scores; a score that is not defined is absent;
* `Fit.ofLine` : the scores of a line on observations; observations of one height are fitted by the horizontal line
  through them;
* `Fit.crossing`, `Fit.height` : the inverse and the direct prediction;
* `Scores.ofFit` : the scores that are shown, those that are not finite left out.
-/

namespace Backpressure.Trend
open Number

/-- A line fitted to observations. `degenerate` says that they all lie at one place, so that no slope is defined. -/
structure Fit (K : Type) where
  line : Line K
  rSquared : Option K
  adjustedRSquared : Option K
  residualSumSquares : K
  meanSquareError : Option K
  observations : Nat
  degenerate : Bool
  deriving DecidableEq

variable {K : Type} [Scalar K]

/-- Whether all numbers of a list are equal. -/
def isConstant : List K → Bool
  | [] => true
  | x :: rest => rest.all (Scalar.eq x)

namespace Fit

/-- The line that is kept for observations: the horizontal one if they all have one height. -/
def settledLine (l : Line K) (points : List (K × K)) : Line K :=
  match points.map Prod.snd with
  | [] => l
  | y :: rest => if isConstant (y :: rest) then ⟨Scalar.zero, y⟩ else l

def residuals (l : Line K) (points : List (K × K)) : K :=
  Arithmetic.sum (points.map fun p =>
    let r := p.2 - (l.intercept + l.slope * p.1)
    r * r)

/-- The sum of the squared deviations of the heights from their mean. -/
def deviations (points : List (K × K)) : K :=
  let mean := Arithmetic.mean (points.map Prod.snd)
  Arithmetic.sum (points.map fun p => (p.2 - mean) * (p.2 - mean))

def ofLine (l : Line K) (points : List (K × K)) : Fit K :=
  let line := settledLine l points
  let n := points.length
  let sse := residuals line points
  let sst := deviations points
  let rSquared := if Scalar.lt Scalar.zero sst then some (Scalar.one - sse / sst) else none
  let freedom : K := Arithmetic.ofInt ((n : Int) - 2)
  { line
    rSquared
    adjustedRSquared :=
      if 2 < n then
        rSquared.bind fun r =>
          if Scalar.isFinite r then
            some (Scalar.one - (Scalar.one - r) * Arithmetic.ofInt ((n : Int) - 1) / freedom)
          else none
      else none
    residualSumSquares := sse
    meanSquareError := if 2 < n then some (sse / freedom) else none
    observations := n
    degenerate := isConstant (points.map Prod.fst) }

/-- The place where the line reaches a height. -/
def crossing (f : Fit K) (y : K) : Except Error K :=
  if f.degenerate || Scalar.eq f.line.slope Scalar.zero || !Scalar.isFinite f.line.slope then
    .error (.noCrossing (Scalar.text y) (Scalar.text f.line.slope))
  else
    let x := (y - f.line.intercept) / f.line.slope
    if Scalar.isFinite x then .ok x else .error (.crossingNotFinite (Scalar.text y))

/-- The height of the line at a place. -/
def height (f : Fit K) (x : K) : K := f.line.height x

/-- The root of the mean square error, absent where that is not finite. -/
def rootMeanSquareError (f : Fit K) : Except Error (Option K) :=
  match f.meanSquareError with
  | none => .ok none
  | some m =>
    if !Scalar.isFinite m then .ok none
    else if Scalar.lt m Scalar.zero then .error .negativeRoot
    else .ok (some (Scalar.sqrt m))

end Fit

/-! ## The scores that are shown -/

/-- The scores of a fit, each of them absent where it is not a finite number. -/
structure Scores (K : Type) where
  rSquared : Option K
  adjustedRSquared : Option K
  rootMeanSquareError : Option K
  residualSumSquares : Option K
  meanSquareError : Option K
  deriving DecidableEq

/-- Scores by name. -/
abbrev ScoreTable (K : Type) := List (String × Option K)

namespace Scores

def ofFit (f : Fit K) : Except Error (Scores K) := do
  let shown (x : Option K) : Option K := x.filter Scalar.isFinite
  return {
    rSquared := shown f.rSquared
    adjustedRSquared := shown f.adjustedRSquared
    rootMeanSquareError := shown (← f.rootMeanSquareError)
    residualSumSquares := shown (some f.residualSumSquares)
    meanSquareError := shown f.meanSquareError }

def toTable {K : Type} (s : Scores K) : ScoreTable K :=
  [("r_squared", s.rSquared), ("adjusted_r_squared", s.adjustedRSquared), ("rmse", s.rootMeanSquareError),
    ("residual_sum_squares", s.residualSumSquares), ("mean_square_error", s.meanSquareError)]

end Scores

end Backpressure.Trend
