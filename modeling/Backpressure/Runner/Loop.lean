import Backpressure.Runner.Pass

/-!
# The loop of the runner

A round lists the connections and makes a pass over them. The loop survives a round that fails, unless there is to be
one round only, but not a sleep that fails.

* `Round` : what a round yields, `Round.make` the round over an engine;
* `Loop.step` : one round, with what it says about going on;
* `Loop.turn` : the same with the sleep after it;
* `Loop.run` : rounds with a sleep after each of them, until the loop ends or has slept often enough.
-/

namespace Backpressure
open Number

/-- What a round yields: the number of connections and what became of them, or an error, and the log. -/
structure Round where
  outcome : Except Error (Nat × PassCounts)
  log : List LogLine

namespace Round

variable {K : Type} [Scalar K]

def make (connections : Except Error (List String)) (s : Sources K) (e : Engine K) : Round × Engine K :=
  match connections with
  | .error error => (⟨.error error, []⟩, e)
  | .ok ids =>
    let (pass, e) := Pass.run e s ids
    (⟨pass.counts.map fun counts => (ids.length, counts), pass.lines⟩, e)

end Round

/-- How the runner ends. -/
inductive Ending where
  /-- The one round that was asked for is over. -/
  | returned
  /-- Stopped from outside while it slept. -/
  | stopped
  /-- The command line ended the program with this status. -/
  | exited (status : Nat)
  | failed (e : Error)
  deriving DecidableEq, Repr

namespace Loop

/-- The line of the log about a round that succeeded. -/
def summary (connections : Nat) (c : PassCounts) : LogLine :=
  ⟨.info, "Iteración completada: conexiones=" ++ toString connections ++ " ok=" ++ toString c.ok ++ " stale=" ++
    toString c.stale ++ " failed=" ++ toString c.failed⟩

/-- The line of the log about a round that failed. -/
def complaint (e : Error) : LogLine := ⟨.error, "Error en iteración: " ++ e.message⟩

/-- The line of the log before the loop goes on after a failure. -/
def resumption : LogLine := ⟨.info, "Continuando con siguiente iteración..."⟩

/-- The log of a round, and how the loop ends with it, none if it goes on. -/
def step (once : Bool) (r : Round) : List LogLine × Option Ending :=
  match r.outcome, once with
  | .ok (n, counts), true => (r.log ++ [summary n counts], some .returned)
  | .ok (n, counts), false => (r.log ++ [summary n counts], none)
  | .error e, true => (r.log ++ [complaint e], some (.failed e))
  | .error e, false => (r.log ++ [complaint e, resumption], none)

/-- What a round and the sleep after it come to: the log, how often a sleep was begun, and how the loop ends, none if it
goes on. -/
structure Turn where
  log : List LogLine
  sleeps : Nat
  ending : Option Ending

/-- A round and, if the loop goes on, the sleep after it. A sleep that fails after a round that succeeded is handled as
a failure of that round, and tried again; one that fails after a failure ends the loop. -/
def turn (once : Bool) (sleep : Except Error Unit) (r : Round) : Turn :=
  match step once r, sleep, r.outcome with
  | (log, some ending), _, _ => ⟨log, 0, some ending⟩
  | (log, none), .ok (), _ => ⟨log, 1, none⟩
  | (log, none), .error e, .ok _ => ⟨log ++ [complaint e, resumption], 2, some (.failed e)⟩
  | (log, none), .error e, .error _ => ⟨log, 1, some (.failed e)⟩

/-- What a loop leaves behind: its log, how often it began to sleep, and how it ended. -/
structure Trace where
  log : List LogLine
  sleeps : Nat
  ending : Ending

/-- Rounds of a state, with a sleep after each that does not end the loop. The loop is stopped while it sleeps for the
time after `n` earlier ones. -/
def run {σ : Type} (once : Bool) (sleep : Except Error Unit) (round : σ → Round × σ) : Nat → σ → Trace
  | n, state =>
    let (r, state) := round state
    let t := turn once sleep r
    match t.ending, n with
    | some ending, _ => ⟨t.log, t.sleeps, ending⟩
    | none, 0 => ⟨t.log, t.sleeps, .stopped⟩
    | none, n + 1 =>
      let rest := run once sleep round n state
      ⟨t.log ++ rest.log, t.sleeps + rest.sleeps, rest.ending⟩

end Loop

end Backpressure
