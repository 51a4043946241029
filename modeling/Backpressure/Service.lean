import Backpressure.Engine.Site
import Backpressure.Engine.Basic
import Backpressure.Settings.Service

/-!
# The service of a process

* `Service.build` : an engine and its surroundings for a backend. The backend `memory` starts without connections; the
  backend `sql` needs a database, which is not part of this library;
* `Service` : the engine of a process, built when it is first asked for;
* `Service.obtain` : that engine.
-/

namespace Backpressure
open Time Trend

/-- An engine and what surrounds it. -/
structure Installation (K : Type) where
  engine : Engine K
  site : Site K

/-- The engine of a process, once it has been asked for. -/
structure Service where
  installation : Option (Installation Float)

namespace Service

/-- The service of a process that has just started. -/
def idle : Service := ⟨none⟩

/-- An engine for a backend, at a wall clock and a monotonic clock. -/
def build (settings : ServiceSettings Float) (clock : Timestamp) (monotonic : Float) :
    Except Error (Installation Float) := do
  if settings.backend = "memory" then
    let registry : Registry Float := Registry.standard
    return ⟨← Engine.create registry settings.engine, Site.empty clock monotonic registry⟩
  else if settings.backend = "sql" then throw .databaseUnavailable
  else throw (.unsupportedBackend settings.backend)

/-- The engine of the process, which the settings in the environment describe. It is built once; an error leaves none. -/
def obtain (s : Service) (environment : Environment) (clock : Timestamp) (monotonic : Float) :
    Except Error (Installation Float × Service) :=
  match s.installation with
  | some installation => .ok (installation, s)
  | none => do
    let installation ← build (← ServiceSettings.ofEnvironment environment) clock monotonic
    return (installation, ⟨some installation⟩)

end Service

end Backpressure
