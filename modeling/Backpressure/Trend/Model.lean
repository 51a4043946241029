import Backpressure.Trend.Batch
import Backpressure.Trend.Fit

/-!
# Models that learn a line

* `Estimator` : how a line is found: least squares, with or without a penalty on the slope, a line given beforehand,
  or not at all;
* `Model` : an estimator with the observations it retains and its last fit;
* `Model.estimate` : the line for observations. It is solved for numbers that can overflow though the observations are
  finite, and a ridge penalty can be refused;
* `Model.learn` : takes in a batch of observations and fits again. The batch is retained before the line is estimated,
  so an estimator that fails leaves the observations of the batch and the fit from before;
* `Model.learnItems` : the same for a batch given by rows;
* `Model.predictX`, `Model.predictY` : the inverse and the direct prediction.
-/

namespace Backpressure.Trend
open Number

/-- How a line is found for observations. -/
inductive Estimator (K : Type) where
  /-- Ordinary least squares. -/
  | leastSquares
  /-- Least squares with a penalty on the slope. -/
  | ridge (penalty : K)
  /-- A line given beforehand. -/
  | given (line : Line K)
  /-- No line, and no observation is retained. -/
  | inert
  deriving DecidableEq

/-- A model of one metric: the observations it retains, as pairs of time and size, and its last fit. -/
structure Model (K : Type) where
  estimator : Estimator K
  /-- Whether it can go on learning from where it is. -/
  online : Bool
  /-- Whether each batch replaces the observations before it. -/
  clearOnLearn : Bool
  points : List (K × K)
  fit : Option (Fit K)
  deriving DecidableEq

namespace Model

variable {K : Type}

def fresh (estimator : Estimator K) (online clearOnLearn : Bool) : Model K :=
  ⟨estimator, online, clearOnLearn, [], none⟩

def size (m : Model K) : Nat := m.points.length

def clear (m : Model K) : Model K := { m with points := [], fit := none }

variable [Scalar K]

/-- Whether observations have finite deviations from their means, which least squares are solved for. -/
def isCentred (points : List (K × K)) : Bool :=
  (Line.deviations points).all fun p => Scalar.isFinite p.1 && Scalar.isFinite p.2

/-- Whether the equation for the slope of a ridge line has finite coefficients. -/
def isSolvable (penalty : K) (points : List (K × K)) : Bool :=
  Scalar.isFinite (Line.slopeFactor penalty points) && Scalar.isFinite (Line.slopeTarget points)

/-- The line of least squares for observations, if the numbers that it is solved for are finite. -/
def solve (penalty : K) (points : List (K × K)) (solvable : Bool) : Except Error (Line K) :=
  if solvable then .ok (Scalar.leastSquares penalty points) else .error .arrayNotFinite

/-- The line for observations. -/
def estimate (e : Estimator K) (points : List (K × K)) : Except Error (Line K) :=
  match e with
  | .leastSquares => solve Scalar.zero points (isCentred points)
  | .ridge penalty =>
    if Scalar.isFinite penalty && !Scalar.lt penalty Scalar.zero then
      solve penalty points (isSolvable penalty points)
    else .error (.penaltyOutOfRange (Scalar.text penalty))
  | .given line => .ok line
  | .inert => .error .noFit

/-- Why a batch is refused, if it is. -/
def refusal? (features labels : List K) : Option Error :=
  if features.isEmpty then some .emptyBatch
  else if features.length ≠ labels.length then some (.lengthMismatch features.length labels.length)
  else if features.all Scalar.isFinite && labels.all Scalar.isFinite then none
  else some .observationNotFinite

/-- The model with a batch retained and its fit not yet renewed. -/
def retain (m : Model K) (batch : List (K × K)) : Model K :=
  { m with points := if m.clearOnLearn then batch else m.points ++ batch }

/-- The model with its fit renewed; fewer than two observations have none. -/
def refit (m : Model K) : Except Error Unit × Model K :=
  if m.points.length < 2 then (.ok (), { m with fit := none })
  else
    match estimate m.estimator m.points with
    | .ok line => (.ok (), { m with fit := some (Fit.ofLine line m.points) })
    | .error e => (.error e, m)

/-- Takes in a batch of observations and fits again. -/
def learn (m : Model K) (features labels : List K) : Except Error Unit × Model K :=
  match m.estimator with
  | .inert => (.ok (), m)
  | _ =>
    match refusal? features labels with
    | some e => (.error e, m)
    | none => (m.retain (features.zip labels)).refit

/-- Takes in a batch whose sides are given by single numbers or by rows. -/
def learnItems (m : Model K) (features labels : List (Item K)) : Except Error Unit × Model K :=
  match m.estimator, Item.flatten features, Item.flatten labels with
  | .inert, _, _ => (.ok (), m)
  | _, .ok xs, .ok ys => m.learn xs ys
  | _, .error e, _ => (.error e, m)
  | _, _, .error e => (.error e, m)

/-- The place where the line reaches a height. -/
def predictX (m : Model K) (y : K) : Except Error K :=
  match m.fit with
  | some f => f.crossing y
  | none => .error .noFit

/-- The height of the line at a place. -/
def predictY (m : Model K) (x : K) : Except Error K :=
  match m.fit with
  | some f => .ok (f.height x)
  | none => .error .noFit

/-- The four scores of the last fit by name, undefined ones absent. -/
def scores? {K : Type} (m : Model K) : Option (ScoreTable K) :=
  m.fit.map fun f =>
    [("r_squared", f.rSquared), ("adjusted_r_squared", f.adjustedRSquared),
      ("residual_sum_squares", some f.residualSumSquares), ("mean_square_error", f.meanSquareError)]

end Model

end Backpressure.Trend
