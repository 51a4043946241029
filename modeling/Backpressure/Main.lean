import Backpressure.Run
import Backpressure.Runner.Program
import Backpressure.Time.Waiting

/-!
# The program of the runner at work

`main` reads the environment and the command line and makes rounds until the program ends. Its log goes to the standard
error stream.
-/

namespace Backpressure.Program
open Time

/-- The variables of the process that the settings are read from. -/
def environment : IO Environment := do
  let values ← ServiceSettings.variableNames.mapM fun name => do return (name, ← IO.getEnv name)
  return ⟨values.filterMap fun v => v.2.map fun value => (v.1, value)⟩

/-- The seconds of a clock that is never set back. -/
def monotonicSeconds : IO Float := do return (← IO.monoMsNow).toFloat / 1000

/-- The wall clock of a backend without connections, which is never asked for the time. -/
def idleClock : Timestamp := ⟨0, some 0⟩

def log (line : LogLine) : IO Unit := IO.eprintln (line.level.name ++ " - " ++ line.text)

/-- Sleeps for a number of seconds that the clock can count, for at most a thousand of them at a time. -/
def sleep (seconds : Float) : IO Unit := do
  let thousands := (seconds / 1000).floor
  for _ in [0:thousands.toUInt64.toNat] do
    IO.sleep 1000000
  IO.sleep ((seconds - thousands * 1000) * 1000).toUInt32

/-- Makes rounds until the program ends. -/
partial def loop (settings : RunnerSettings) (i : Installation Float) : IO Ending := do
  let monotonic ← monotonicSeconds
  let (round, i) := { i with site := { i.site with monotonic } : Installation Float }.round
  let turn := Loop.turn settings.once (pause settings.sleepSeconds) round
  turn.log.forM log
  match turn.ending with
  | some ending => return ending
  | none =>
    sleep settings.sleepSeconds
    loop settings i

/-- Runs the program with the arguments of a command line. -/
def run (arguments : List String) : IO Ending := do
  match RunnerSettings.read (← environment) arguments with
  | .error ending => return ending
  | .ok settings =>
    match Service.build settings.service idleClock (← monotonicSeconds) with
    | .error e => return .failed e
    | .ok installation =>
      settings.greeting.forM log
      loop settings installation

/-- Says how the program ended, and gives its exit status. -/
def finish : Ending → IO UInt32
  | .returned | .stopped => return 0
  | .exited status => do
    IO.eprintln Options.usage
    return UInt32.ofNat status
  | .failed e => do
    IO.eprintln e.message
    return 1

end Backpressure.Program

def main (arguments : List String) : IO UInt32 := do
  Backpressure.Program.finish (← Backpressure.Program.run arguments)
