import Backpressure.Error

/-!
# The two metrics of a queue

A queue is measured in bytes and in objects; `Metric.all` lists the two in the order in which they are reported.
-/

namespace Backpressure

/-- What is measured of a queue. -/
inductive Metric where
  | queuedBytes
  | queuedCount
  deriving DecidableEq, Repr

namespace Metric

/-- The metrics in the order in which they are reported. -/
def all : List Metric := [queuedBytes, queuedCount]

def name : Metric → String
  | queuedBytes => "queued_bytes"
  | queuedCount => "queued_count"

def ofName (s : String) : Except Error Metric :=
  match all.find? fun m => m.name == s with
  | some m => .ok m
  | none => .error (.unsupportedMetric s)

end Metric

/-- A value for each of the two metrics. -/
structure PerMetric (α : Type) where
  bytes : α
  count : α
  deriving DecidableEq, Repr

namespace PerMetric

variable {α : Type}

def get (p : PerMetric α) : Metric → α
  | .queuedBytes => p.bytes
  | .queuedCount => p.count

/-- The values with the one of a metric replaced. -/
def set (p : PerMetric α) (m : Metric) (a : α) : PerMetric α :=
  match m with
  | .queuedBytes => { p with bytes := a }
  | .queuedCount => { p with count := a }

def of (f : Metric → α) : PerMetric α := ⟨f .queuedBytes, f .queuedCount⟩

end PerMetric

end Backpressure
