import Backpressure.Config
import Backpressure.Settings.Environment

/-!
# Settings of the service

* `ServiceSettings` : where the history comes from and the configuration of the engine;
* `ServiceSettings.ofEnvironment` : reads them from variables `ANALYTICS_…`.
-/

namespace Backpressure

/-- The settings of the service. -/
structure ServiceSettings (K : Type) where
  backend : String
  engine : EngineConfig K
  deriving DecidableEq

namespace ServiceSettings

/-- The names of the variables that the settings are read from. -/
def variableNames : List String :=
  ["ANALYTICS_BACKEND", "ANALYTICS_LOOKBACK_MINUTES", "ANALYTICS_LOOKBACK_POINTS", "ANALYTICS_MIN_POINTS",
    "ANALYTICS_HORIZON_MINUTES", "ANALYTICS_REFRESH_SECONDS", "ANALYTICS_FETCH_TIMEOUT", "ANALYTICS_FETCH_WORKERS",
    "ANALYTICS_MAX_CACHED", "ANALYTICS_MODEL_TYPE", "ANALYTICS_CLEAR_ON_LEARN", "ANALYTICS_RIDGE_ALPHA"]

def modelOf (e : Environment) : Except Error (ModelConfig Float) := do
  return {
    kind := e.text "ANALYTICS_MODEL_TYPE" "linear"
    clearOnLearn := e.flag "ANALYTICS_CLEAR_ON_LEARN"
    ridgePenalty := ← e.real "ANALYTICS_RIDGE_ALPHA" 1 }

/-- The configuration of the engine. The first variable that cannot be read is reported, in the order of the fields. -/
def engineOf (e : Environment) : Except Error (EngineConfig Float) := do
  let standard : EngineConfig Float := EngineConfig.standard
  let lookbackMinutes ← e.integer "ANALYTICS_LOOKBACK_MINUTES" standard.lookbackMinutes
  let lookbackPoints ← e.integer "ANALYTICS_LOOKBACK_POINTS" standard.lookbackPoints
  let minPoints ← e.integer "ANALYTICS_MIN_POINTS" standard.minPoints
  let horizonMinutes ← e.integer "ANALYTICS_HORIZON_MINUTES" standard.horizonMinutes
  let refreshSeconds ← e.real "ANALYTICS_REFRESH_SECONDS" standard.refreshSeconds
  let fetchTimeoutSeconds ← e.real "ANALYTICS_FETCH_TIMEOUT" standard.fetchTimeoutSeconds
  let fetchWorkers ← e.integer "ANALYTICS_FETCH_WORKERS" standard.fetchWorkers
  let maxCachedConnections ← e.integer "ANALYTICS_MAX_CACHED" standard.maxCachedConnections
  let model ← modelOf e
  EngineConfig.check {
    lookbackMinutes, lookbackPoints, minPoints, horizonMinutes, refreshSeconds, fetchTimeoutSeconds, fetchWorkers,
    maxCachedConnections, model }

/-- The settings that an environment gives. The name of the backend is taken in lower case. -/
def ofEnvironment (e : Environment) : Except Error (ServiceSettings Float) := do
  return ⟨String.ofList (Text.lower (e.text "ANALYTICS_BACKEND" "sql").toList), ← engineOf e⟩

end ServiceSettings

end Backpressure
