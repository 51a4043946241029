import Backpressure.Runner.Loop
import Backpressure.Runner.Options
import Backpressure.Settings.Service

/-!
# The program of the runner

* `RunnerSettings` : the settings of the service with what the command line changes in them;
* `RunnerSettings.read` : reads them from the environment and the command line, in this order;
* `Runner.run` : the whole program over rounds of a state, until it ends or has slept often enough.
-/

namespace Backpressure
open Number

/-- The settings of the runner. -/
structure RunnerSettings where
  service : ServiceSettings Float
  sleepSeconds : Float
  workers : Int
  once : Bool

namespace RunnerSettings

/-- The options where the command line says nothing. -/
def standardOptions (s : ServiceSettings Float) : Options :=
  { sleepSeconds := 60
    workers := 4
    horizonMinutes := s.engine.horizonMinutes
    lookbackMinutes := s.engine.lookbackMinutes
    once := false }

/-- The settings of the service with what the options change in them. -/
def withOptions (s : ServiceSettings Float) (o : Options) : Except Error RunnerSettings := do
  let engine ← EngineConfig.check
    { s.engine with horizonMinutes := o.horizonMinutes, lookbackMinutes := o.lookbackMinutes }
  return ⟨{ s with engine }, o.sleepSeconds, o.workers, o.once⟩

/-- The settings that an environment and a command line give, or how the program ends without them. -/
def read (environment : Environment) (arguments : List String) : Except Ending RunnerSettings :=
  match ServiceSettings.ofEnvironment environment with
  | .error e => .error (.failed e)
  | .ok service =>
    match Options.read (standardOptions service) arguments with
    | .error refusal => .error (.exited refusal.status)
    | .ok options =>
      match withOptions service options with
      | .error e => .error (.failed e)
      | .ok settings => .ok settings

/-- The lines of the log at the start. -/
def greeting (s : RunnerSettings) : List LogLine :=
  [⟨.info, "Queue Analytics Runner started"⟩,
    ⟨.info, "Config: sleep=" ++ Decimal.fixed 1 s.sleepSeconds ++ "s workers=" ++ toString s.workers ++ " horizon=" ++
      toString s.service.engine.horizonMinutes ++ "min lookback=" ++ toString s.service.engine.lookbackMinutes ++
      "min"⟩]

end RunnerSettings

/-- What the program leaves behind. -/
structure RunnerReport where
  ending : Ending
  log : List LogLine
  sleeps : List Float
  /-- The configuration that an engine was asked for with. -/
  config : Option (EngineConfig Float)

namespace Runner

/-- The program: reads its settings, builds the state of its rounds and loops. It is stopped while it sleeps for the
time after `n` earlier ones. -/
def run {σ : Type} (sleep : Float → Except Error Unit) (build : ServiceSettings Float → Except Error σ)
    (round : σ → Round × σ) (environment : Environment) (arguments : List String) (n : Nat) : RunnerReport :=
  match RunnerSettings.read environment arguments with
  | .error ending => ⟨ending, [], [], none⟩
  | .ok settings =>
    let config := some settings.service.engine
    match build settings.service with
    | .error e => ⟨.failed e, [], [], config⟩
    | .ok state =>
      let trace := Loop.run settings.once (sleep settings.sleepSeconds) round n state
      ⟨trace.ending, settings.greeting ++ trace.log, List.replicate trace.sleeps settings.sleepSeconds, config⟩

end Runner

end Backpressure
