import Backpressure.DataSize
import Backpressure.Eta
import Backpressure.Metric
import Backpressure.Time.Timestamp
import Backpressure.Trend.Fit

/-!
# The analytics of a connection

* `Analytics` : what is predicted for a connection, with the limits and the scores it rests on;
* `Analytics.asStale` : the same, marked as older than asked for;
* `Analytics.insufficientData` : the metrics without a model.
-/

namespace Backpressure
open Time Trend

/-- What is predicted for a connection. -/
structure Analytics (K : Type) where
  connection : String
  computedAt : Timestamp
  eta : PerMetric Eta
  /-- The predicted sizes at `nextAt`. -/
  next : PerMetric (Option Int)
  nextAt : Timestamp
  limit : PerMetric (Option Limit)
  /-- The predicted sizes as percentages of the limits. -/
  percentage : PerMetric (Option K)
  /-- Scores by metric; a metric without a model has none. -/
  scores : List (String × Option (ScoreTable K))
  stale : Bool
  deriving DecidableEq

namespace Analytics

variable {K : Type}

/-- The analytics marked as older than asked for. -/
def asStale (a : Analytics K) : Analytics K := { a with stale := true }

/-- The metrics that have too few observations for a model. -/
def insufficientData (a : Analytics K) : List Metric := Metric.all.filter fun m => a.eta.get m = .insufficientData

/-- The scores under a name, absent if there are none. -/
def scoresOf (a : Analytics K) (name : String) : Option (ScoreTable K) := (a.scores.lookup name).join

end Analytics

end Backpressure
