import Backpressure.Analytics

/-!
# Analytics as documents

* `Document` : a value made of texts, numbers, flags, lists and objects;
* `Analytics.document` : all that is known of a connection.
-/

namespace Backpressure
open Time Trend

/-- A value made of texts, numbers, flags, lists and objects. -/
inductive Document (K : Type) where
  | null
  | flag (b : Bool)
  | whole (n : Int)
  | real (x : K)
  | text (s : String)
  | list (items : List (Document K))
  | object (fields : List (String × Document K))

namespace Document

variable {K : Type}

def optional {α : Type} (f : α → Document K) : Option α → Document K
  | some a => f a
  | none => null

def ofScores (scores : ScoreTable K) : Document K := object (scores.map fun s => (s.1, optional real s.2))

/-- A limit; one given as a flag stays a flag. -/
def ofLimit : Limit → Document K
  | .amount n => whole n
  | .flag b => flag b

end Document

namespace Analytics

variable {K : Type}
open Document

/-- All that is known of a connection, times written with their offsets and limits as they were given. -/
def document (a : Analytics K) : Document K :=
  object [
    ("connection_id", text a.connection),
    ("computed_at", text a.computedAt.iso),
    ("time_to_bytes_backpressure", object [
      ("status", text a.eta.bytes.status),
      ("millis", optional whole a.eta.bytes.millis)]),
    ("time_to_count_backpressure", object [
      ("status", text a.eta.count.status),
      ("millis", optional whole a.eta.count.millis)]),
    ("next_interval_bytes", optional whole a.next.bytes),
    ("next_interval_count", optional whole a.next.count),
    ("next_interval_at", text a.nextAt.iso),
    ("next_interval_percentage_use_bytes", optional real a.percentage.bytes),
    ("next_interval_percentage_use_count", optional real a.percentage.count),
    ("bytes_limit", optional ofLimit a.limit.bytes),
    ("count_limit", optional ofLimit a.limit.count),
    ("scores", object (a.scores.map fun s => (s.1, optional ofScores s.2))),
    ("stale", flag a.stale)]

end Analytics

end Backpressure
