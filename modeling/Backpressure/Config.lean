import Backpressure.Error
import Backpressure.Number.Scalar

/-!
# Configuration of the models and the engine

* `ModelConfig` : the kind of model and its parameters;
* `EngineConfig` : the window of history, the horizon, the refresh interval and the sizes of pools;
* `EngineConfig.check` : a configuration whose window is not empty.
-/

namespace Backpressure
open Number

/-- The kind of model that is fitted to each metric, and its parameters. -/
structure ModelConfig (K : Type) where
  kind : String
  clearOnLearn : Bool
  ridgePenalty : K
  deriving DecidableEq

/-- The configuration of an engine. -/
structure EngineConfig (K : Type) where
  lookbackMinutes : Int
  lookbackPoints : Int
  minPoints : Int
  horizonMinutes : Int
  refreshSeconds : K
  fetchTimeoutSeconds : K
  fetchWorkers : Int
  maxCachedConnections : Int
  model : ModelConfig K
  deriving DecidableEq

variable {K : Type} [Scalar K]

/-- A line of least squares that accumulates what it learns. -/
def ModelConfig.standard : ModelConfig K := ⟨"linear", false, Scalar.one⟩

namespace EngineConfig

/-- An hour of history, forecasts five minutes ahead, results that stay fresh for a minute. -/
def standard : EngineConfig K where
  lookbackMinutes := 60
  lookbackPoints := 1000
  minPoints := 2
  horizonMinutes := 5
  refreshSeconds := Arithmetic.ofInt 60
  fetchTimeoutSeconds := Arithmetic.ofInt 10
  fetchWorkers := 4
  maxCachedConnections := 10000
  model := ModelConfig.standard

/-- The configuration, if its window has points and minutes. -/
def check (c : EngineConfig K) : Except Error (EngineConfig K) :=
  if c.lookbackPoints ≤ 0 then .error (.lookbackPointsNotPositive c.lookbackPoints)
  else if c.lookbackMinutes ≤ 0 then .error (.lookbackMinutesNotPositive c.lookbackMinutes)
  else .ok c

end EngineConfig

end Backpressure
