import Backpressure.Engine.Sources
import Backpressure.Time.Waiting

/-!
# One recomputation of a connection

* `Entry` : what the cache holds for a connection: its analytics, when they were computed and the live models;
* `Entry.compute` : the entry for a connection, from the entry before it if there is one. It asks for the thresholds,
  fetches both metrics, trains their models on copies and forecasts; the entry before stays as it is.
-/

namespace Backpressure
open Number Time Trend

/-- What the cache holds for a connection. -/
structure Entry (K : Type) where
  analytics : Analytics K
  computedMonotonic : K
  models : PerMetric (Option (LiveModel K))
  deriving DecidableEq

namespace Entry

variable {K : Type} [Scalar K]

/-- The thresholds of a connection. Only an unknown connection is not a failure of the directory. -/
def askThresholds (s : Sources K) (id : String) : Except Error Thresholds :=
  match s.thresholds id with
  | .ok limits => .ok limits
  | .error (.unknownConnection id) => .error (.unknownConnection id)
  | .error e => .error (.sourceFailed id ("threshold lookup failed: " ++ e.message))

/-- The answer of the history for a metric. A connection without history has an empty series. -/
def settle (id : String) (metric : Metric) : Except Error (Series K) → Except Error (Series K)
  | .ok series => .ok series
  | .error (.noHistory _) => .ok (Series.empty id metric)
  | .error (.unknownConnection id) => .error (.unknownConnection id)
  | .error e => .error (.sourceFailed id ("history fetch failed for " ++ metric.name ++ ": " ++ e.message))

/-- The series of both metrics. A metric that is not answered in time fails both, and so does a timeout that is too long
to wait for, unless there is nothing to wait for. -/
def askHistory (s : Sources K) (config : EngineConfig K) (stopped : Bool) (id : String) (window : Lookback) :
    Except Error (PerMetric (Series K)) :=
  if stopped then .error .workersStopped
  else
    let bytes := s.history id .queuedBytes window
    let count := s.history id .queuedCount window
    let timeout := config.fetchTimeoutSeconds
    if !(bytes.isFinished && count.isFinished) && cannotWait timeout then .error .clockOverflow
    else
      match bytes.within? timeout, count.within? timeout with
      | some bytes, some count => do
        return ⟨← settle id .queuedBytes bytes, ← settle id .queuedCount count⟩
      | _, _ => .error (.deadline id (Scalar.tenths timeout))

/-- The scores of a model in use. -/
def scoresOf (s : Option (LiveModel K)) : Except Error (Option (ScoreTable K)) :=
  match s.bind (·.model.fit) with
  | some f => (Scores.ofFit f).map fun scores => some scores.toTable
  | none => .ok none

/-- The entry for a connection. `stopped` says that the workers have been shut down. -/
def compute (s : Sources K) (config : EngineConfig K) (stopped : Bool) (id : String) (previous : Option (Entry K)) :
    Except Error (Entry K) := do
  let limits ← askThresholds s id
  let now ← s.clock.toInstant
  let start ← now.earlier config.lookbackMinutes
  let window ← Lookback.of start.toTimestamp config.lookbackPoints
  let series ← askHistory s config stopped id window
  let before (m : Metric) : Option (LiveModel K) := previous.bind fun e => e.models.get m
  let bytes ← LiveModel.train s.registry config series.bytes (before .queuedBytes)
  let count ← LiveModel.train s.registry config series.count (before .queuedCount)
  let target ← now.later config.horizonMinutes
  let bytesForecast ← LiveModel.forecast bytes limits.bytes now target
  let countForecast ← LiveModel.forecast count limits.count now target
  let bytesScores ← scoresOf bytes
  let countScores ← scoresOf count
  return {
    analytics := {
      connection := id
      computedAt := now.toTimestamp
      eta := ⟨bytesForecast.eta, countForecast.eta⟩
      next := ⟨bytesForecast.next, countForecast.next⟩
      nextAt := target.toTimestamp
      limit := ⟨limits.bytes, limits.count⟩
      percentage := ⟨bytesForecast.percentage, countForecast.percentage⟩
      scores := [(Metric.queuedBytes.name, bytesScores), (Metric.queuedCount.name, countScores)]
      stale := false }
    computedMonotonic := s.monotonic
    models := ⟨bytes, count⟩ }

end Entry

end Backpressure
