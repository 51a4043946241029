import Backpressure.Engine.Basic

/-!
# One pass over the connections

* `LogLine` : a line of the log;
* `Pass` : what became of refreshing each connection of a list, `Pass.run` refreshes them one after another;
* `Pass.counts` : how many were refreshed, stale and failed. An error that is not one of the analytics of a connection
  fails the whole pass, after all connections have been refreshed.
-/

namespace Backpressure
open Number

/-- How grave a line of the log is. -/
inductive LogLevel where
  | info
  | warning
  | error
  deriving DecidableEq, Repr

def LogLevel.name : LogLevel → String
  | info => "INFO"
  | warning => "WARNING"
  | error => "ERROR"

/-- A line of the log. -/
structure LogLine where
  level : LogLevel
  text : String
  deriving DecidableEq, Repr

/-- How many connections of a pass were refreshed, stale and failed. -/
structure PassCounts where
  ok : Nat
  stale : Nat
  failed : Nat
  deriving DecidableEq, Repr

/-- What became of refreshing one connection. -/
structure Refreshed (K : Type) where
  id : String
  outcome : Except Error (Reply K)

namespace Refreshed

variable {K : Type}

/-- The error that fails the whole pass, if there is one. -/
def fatal? (r : Refreshed K) : Option Error :=
  match r.outcome with
  | .ok _ => none
  | .error e => if e.isAnalytics then none else some e

def isStale (r : Refreshed K) : Bool :=
  match r.outcome with
  | .ok reply => reply.value.stale
  | .error _ => false

def isFailed (r : Refreshed K) : Bool :=
  match r.outcome with
  | .ok _ => false
  | .error _ => true

/-- An optional number as the log shows it. -/
def numberText (n : Option Int) : String := ((n.map Reading.whole).getD .missing).toText

/-- The line of the log about a connection. -/
def line (r : Refreshed K) : LogLine :=
  match r.outcome with
  | .ok reply =>
    let a := reply.value
    ⟨.info, "connection_id=" ++ r.id ++ " bytes_eta=" ++ a.eta.bytes.text ++ " count_eta=" ++ a.eta.count.text ++
      " next_bytes=" ++ numberText a.next.bytes ++ " next_count=" ++ numberText a.next.count ++ " stale=" ++
      (Reading.flag a.stale).toText⟩
  | .error e => ⟨.warning, "Analítica fallida: " ++ e.message⟩

end Refreshed

/-- What became of refreshing the connections of a list, in its order. -/
structure Pass (K : Type) where
  refreshed : List (Refreshed K)

namespace Pass

variable {K : Type}

/-- Refreshes connections one after another. -/
def run [Scalar K] (e : Engine K) (s : Sources K) : List String → Pass K × Engine K
  | [] => (⟨[]⟩, e)
  | id :: ids =>
    let (outcome, e) := e.refresh s id
    let (rest, e) := run e s ids
    (⟨⟨id, outcome⟩ :: rest.refreshed⟩, e)

/-- The numbers of connections that were refreshed, stale and failed, or the error that fails the pass. -/
def counts (p : Pass K) : Except Error PassCounts :=
  match p.refreshed.findSome? Refreshed.fatal? with
  | some e => .error e
  | none =>
    let stale := p.refreshed.countP Refreshed.isStale
    let failed := p.refreshed.countP Refreshed.isFailed
    .ok ⟨p.refreshed.length - stale - failed, stale, failed⟩

/-- The lines of the log, up to an error that fails the pass. -/
def lines (p : Pass K) : List LogLine :=
  (p.refreshed.takeWhile fun r => r.fatal?.isNone).map Refreshed.line

end Pass

end Backpressure
