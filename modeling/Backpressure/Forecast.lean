import Backpressure.Analytics
import Backpressure.History
import Backpressure.Thresholds
import Backpressure.Trend.Registry

/-!
# Training and forecasting one metric

* `LiveModel` : a model with the instant its times are counted from and the newest instant it has learned;
* `LiveModel.train` : the model for a series. One that learns online goes on from where it is with the points that are
  newer than all it has learned; otherwise a fresh one learns the whole series;
* `Forecast` : the time to backpressure, the size at a target time and that size as a percentage of the limit;
* `LiveModel.timeToLimit` : the first crossing of the limit after now, if the line rises and has not reached it.
-/

namespace Backpressure
open Number Time Trend

/-- A model of one metric in use. Its times are milliseconds since `origin`. -/
structure LiveModel (K : Type) where
  model : Model K
  origin : Instant
  last : Instant
  deriving DecidableEq

/-- What is forecast of one metric. -/
structure Forecast (K : Type) where
  eta : Eta
  next : Option Int
  percentage : Option K
  deriving DecidableEq

variable {K : Type} [Scalar K]

namespace LiveModel

/-- Whether a model goes on learning from where it is. -/
def continues (s : LiveModel K) : Bool := s.model.online && !s.model.clearOnLearn

/-- The model after learning timed values; none if it still has too few for a line. -/
def learnAt (m : Model K) (origin : Instant) (times : List Instant) (values : List K) :
    Except Error (Option (LiveModel K)) :=
  match m.learn (times.map (origin.millisTo ·)) values with
  | (.error e, _) => .error e
  | (.ok (), m) =>
    match m.fit, times.getLast? with
    | some _, some last => .ok (some ⟨m, origin, last⟩)
    | _, _ => .ok none

/-- A fresh model of the whole series; none if it has fewer points than a model needs. -/
def trainFresh (registry : Registry K) (config : EngineConfig K) (times : List Instant) (values : List K) :
    Except Error (Option (LiveModel K)) :=
  match times with
  | [] => .ok none
  | origin :: _ =>
    if (times.length : Int) < max 2 config.minPoints then .ok none
    else do learnAt (← registry.create config.model.kind config.model) origin times values

/-- The live model after learning the points that are newer than all it has learned. -/
def extend (s : LiveModel K) (times : List Instant) (values : List K) : Except Error (Option (LiveModel K)) :=
  let newer := (times.zip values).filter fun p => s.last.micros < p.1.micros
  if newer.isEmpty then .ok (some s)
  else learnAt s.model s.origin (newer.map Prod.fst) (newer.map Prod.snd)

/-- The model for a series, from the model of the recomputation before if there is one. -/
def train (registry : Registry K) (config : EngineConfig K) (series : Series K) (previous : Option (LiveModel K)) :
    Except Error (Option (LiveModel K)) := do
  let times ← series.timestamps.mapM Timestamp.toInstant
  match previous with
  | some s => if s.continues then s.extend times series.values else trainFresh registry config times series.values
  | none => trainFresh registry config times series.values

/-! ## Forecasts -/

/-- The time from now until the line reaches a limit. -/
def timeToLimit (s : LiveModel K) (f : Fit K) (limit : Option Limit) (now : Instant) : Except Error Eta :=
  match limit.map Limit.toInt with
  | none => .ok .never
  | some limit =>
    if limit ≤ 0 || f.degenerate || !Scalar.lt Scalar.zero f.line.slope then .ok .never
    else do
      match f.crossing (← numberOfInt limit) with
      | .error _ => return .never
      | .ok x =>
        let remaining := x - s.origin.millisTo now
        if Scalar.isFinite remaining && Scalar.lt Scalar.zero remaining then Eta.inMillis remaining
        else return .never

/-- A predicted size as a percentage of a limit, which is absent or not zero. -/
def percentageOf (next : Int) (limit : Option Limit) : Option K :=
  match limit.map Limit.toInt with
  | none => none
  | some limit => if limit = 0 then none else some (Arithmetic.ratio next limit * Arithmetic.ofInt 100)

/-- What is forecast for a limit, seen from now and for a target time. A queue has no negative size. -/
def forecastFrom (s : LiveModel K) (f : Fit K) (limit : Option Limit) (now target : Instant) :
    Except Error (Forecast K) := do
  let eta ← s.timeToLimit f limit now
  let height := f.height (s.origin.millisTo target)
  if Scalar.isFinite height then
    let next := max 0 (Scalar.round height)
    return ⟨eta, some next, percentageOf next limit⟩
  else return ⟨eta, none, none⟩

/-- What is forecast of a metric with or without a model. -/
def forecast (s : Option (LiveModel K)) (limit : Option Limit) (now target : Instant) : Except Error (Forecast K) :=
  match s with
  | none => .ok ⟨.insufficientData, none, none⟩
  | some s =>
    match s.model.fit with
    | none => .ok ⟨.insufficientData, none, none⟩
    | some f => s.forecastFrom f limit now target

end LiveModel

end Backpressure
