import Backpressure.Engine.Sources

/-!
# Surroundings kept in memory

* `Site` : the thresholds, the history, the clocks and the model kinds around an engine, with the faults in force;
* `Site.sources` : what an engine is answered here. A fault answers a fetch, or else the series pinned to the connection
  and the metric, or else the recorded history; a fetch that is held up takes its time besides;
* `Site.recover` : ends all faults.
-/

namespace Backpressure
open Time Trend

/-- The faults in force. -/
structure Faults (K : Type) where
  /-- The answer to every lookup of thresholds. -/
  thresholds : Option Error
  /-- The answer to every listing of the connections. -/
  listing : Option Error
  /-- The answers to every fetch of a metric. -/
  history : PerMetric (Option Error)
  /-- The seconds by which every fetch of a metric is held up. -/
  held : PerMetric (Option K)
  deriving DecidableEq

def Faults.none {K : Type} : Faults K := ⟨.none, .none, ⟨.none, .none⟩, ⟨.none, .none⟩⟩

/-- The surroundings of an engine. -/
structure Site (K : Type) where
  directory : ThresholdDirectory
  history : History
  /-- Series that answer every fetch of a connection's metric. -/
  pinned : Table (PerMetric (Option (Series K)))
  faults : Faults K
  clock : Timestamp
  monotonic : K
  registry : Registry K

namespace Site

variable {K : Type}

def empty (clock : Timestamp) (monotonic : K) (registry : Registry K) : Site K :=
  ⟨ThresholdDirectory.empty, History.empty, Table.empty, Faults.none, clock, monotonic, registry⟩

/-! ## What the surroundings answer -/

def thresholds (s : Site K) (id : String) : Except Error Thresholds :=
  match s.faults.thresholds with
  | some e => .error e
  | none => s.directory.resolve id

def connections (s : Site K) : Except Error (List String) :=
  match s.faults.listing with
  | some e => .error e
  | none => .ok s.directory.ids

/-- The series pinned to a metric of a connection. -/
def pinned? (s : Site K) (id : String) (metric : Metric) : Option (Series K) :=
  (s.pinned.get? id).bind fun p => p.get metric

variable [Number.Scalar K]

/-- The series of a metric of a connection. -/
def series (s : Site K) (id : String) (metric : Metric) (window : Lookback) : Except Error (Series K) :=
  match s.faults.history.get metric, s.pinned? id metric with
  | some e, _ => .error e
  | none, some series => .ok series
  | none, none => s.history.fetch id metric window

def sources (s : Site K) : Sources K where
  thresholds := s.thresholds
  history id metric window :=
    match s.faults.held.get metric with
    | some seconds => .running seconds (s.series id metric window)
    | none => .finished (s.series id metric window)
  clock := s.clock
  monotonic := s.monotonic
  registry := s.registry

/-! ## What changes them -/

omit [Number.Scalar K]

def register (s : Site K) (id : String) (bytes : Reading) (count : Option Limit) :
    Except Error Thresholds × Site K :=
  match s.directory.register id bytes count with
  | .ok (limits, directory) => (.ok limits, { s with directory })
  | .error e => (.error e, s)

def remove (s : Site K) (id : String) : Site K := { s with directory := s.directory.remove id }

/-- Records sizes of a queue one after another, up to the first that cannot be recorded. -/
def record (s : Site K) (id : String) : List (Timestamp × Reading × Reading) → Except Error Unit × Site K
  | [] => (.ok (), s)
  | (timestamp, bytes, count) :: rest =>
    match s.history.record id timestamp bytes count with
    | (.ok _, history) => record { s with history } id rest
    | (.error e, history) => (.error e, { s with history })

/-- Lets a series answer every fetch of its metric and connection. -/
def pin (s : Site K) (series : Series K) : Site K :=
  let others := (s.pinned.get? series.connection).getD ⟨none, none⟩
  { s with pinned := s.pinned.insert series.connection (others.set series.metric (some series)) }

def failThresholds (s : Site K) (e : Error) : Site K :=
  { s with faults := { s.faults with thresholds := some e } }

def failListing (s : Site K) (e : Error) : Site K := { s with faults := { s.faults with listing := some e } }

def failHistory (s : Site K) (e : Error) (metrics : List Metric) : Site K :=
  { s with faults := { s.faults with history := metrics.foldl (fun h m => h.set m (some e)) s.faults.history } }

/-- Holds up the fetches of some metrics. -/
def hold (s : Site K) (seconds : K) (metrics : List Metric) : Site K :=
  { s with faults := { s.faults with held := metrics.foldl (fun h m => h.set m (some seconds)) s.faults.held } }

def recover (s : Site K) : Site K := { s with faults := Faults.none }

end Site

end Backpressure
