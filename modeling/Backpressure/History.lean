import Backpressure.Metric
import Backpressure.Reading
import Backpressure.Table
import Backpressure.Time.Timestamp

/-!
# The history of the queues

* `Lookback` : the window asked of a history, its start and the most points it may hold;
* `Series` : the points of one metric of one connection, oldest first;
* `Snapshot`, `History` : recorded sizes of queues, `History.record` adds one and `History.fetch` reads a window;
* `HistoryQuery`, `HistoryRow` : the same window asked of a database table and read from the rows it answers with,
  newest first.
-/

namespace Backpressure
open Number Time

/-- The window asked of a history: the points since a time, and at most `maxPoints` of them, the newest. -/
structure Lookback where
  since : Timestamp
  maxPoints : Int
  deriving DecidableEq, Repr

def Lookback.of (since : Timestamp) (maxPoints : Int) : Except Error Lookback :=
  if maxPoints ≤ 0 then .error (.maxPointsNotPositive maxPoints) else .ok ⟨since, maxPoints⟩

/-- The points of one metric of one connection. -/
structure Series (K : Type) where
  connection : String
  metric : Metric
  timestamps : List Timestamp
  values : List K
  deriving DecidableEq

def Series.empty {K : Type} (connection : String) (metric : Metric) : Series K := ⟨connection, metric, [], []⟩

/-! ## Recorded snapshots -/

/-- The size of a queue at one time. -/
structure Snapshot where
  timestamp : Timestamp
  bytes : Int
  count : Int
  deriving DecidableEq, Repr

/-- The size of a queue in one metric. -/
def Snapshot.value (s : Snapshot) : Metric → Int
  | .queuedBytes => s.bytes
  | .queuedCount => s.count

/-- The recorded snapshots of each connection. -/
structure History where
  snapshots : Table (List Snapshot)
  deriving DecidableEq, Repr

namespace History

def empty : History := ⟨Table.empty⟩

def of (h : History) (id : String) : List Snapshot := (h.snapshots.get? id).getD []

/-- Whether the timestamps of a list are comparable with each other. -/
def comparable (snapshots : List Snapshot) : Bool :=
  snapshots.all (·.timestamp.offset.isSome) || snapshots.all (·.timestamp.offset.isNone)

/-- The snapshots in the order of their timestamps, those of which neither is before the other in their order. -/
def sorted (snapshots : List Snapshot) : Except Error (List Snapshot) :=
  if comparable snapshots then .ok (snapshots.mergeSort fun a b => !b.timestamp.precedes a.timestamp)
  else .error .mixedOffsets

/-- The snapshots with one more at the end, put in order if it is older than the one before it. On an error the
snapshots stay as they are with the new one at the end. -/
def append (snapshots : List Snapshot) (s : Snapshot) : Except Error Unit × List Snapshot :=
  let extended := snapshots ++ [s]
  let ordered := do
    match snapshots.getLast? with
    | some last => if ← s.timestamp.isBefore last.timestamp then sorted extended else pure extended
    | none => pure extended
  match ordered with
  | .ok list => (.ok (), list)
  | .error e => (.error e, extended)

/-- Records the size of a queue. A snapshot whose time cannot be compared is kept all the same. -/
def record (h : History) (id : String) (timestamp : Timestamp) (bytes count : Reading) :
    Except Error Snapshot × History :=
  match (do return ⟨timestamp, ← bytes.toInt, ← count.toInt⟩ : Except Error Snapshot) with
  | .error e => (.error e, h)
  | .ok s =>
    let (outcome, list) := append (h.of id) s
    (outcome.map fun _ => s, ⟨h.snapshots.insert id list⟩)

/-- The snapshots at or after an instant. -/
def since (start : Instant) : List Snapshot → Except Error (List Snapshot)
  | [] => .ok []
  | s :: rest => do
    let t ← s.timestamp.toInstant
    let later ← since start rest
    return if start.micros ≤ t.micros then s :: later else later

def lastOf {α : Type} (n : Int) (xs : List α) : List α := xs.drop (xs.length - n.toNat)

/-- The points of a metric in a window. -/
def fetch {K : Type} [Scalar K] (h : History) (id : String) (metric : Metric) (window : Lookback) :
    Except Error (Series K) := do
  let start ← window.since.toInstant
  let snapshots := lastOf window.maxPoints (← since start (h.of id))
  let values ← snapshots.mapM fun s => numberOfInt (s.value metric)
  return ⟨id, metric, snapshots.map (·.timestamp), values⟩

end History

/-! ## A database table of snapshots -/

/-- What the database is asked for: the newest `limit` rows of a connection from `start` on, and one column of them. -/
structure HistoryQuery where
  connection : String
  column : Metric
  start : Timestamp
  limit : Int
  deriving DecidableEq, Repr

/-- The query for a window. The table keeps its times in UTC and without an offset. -/
def HistoryQuery.of (id : String) (metric : Metric) (window : Lookback) : HistoryQuery :=
  ⟨id, metric, window.since.withoutOffset, window.maxPoints⟩

/-- A row that answers a query. -/
structure HistoryRow where
  timestamp : Timestamp
  value : Reading

namespace HistoryRow

/-- The point that a row holds, none if its value is missing. -/
def point? (r : HistoryRow) : Except Error (Option (Timestamp × Float)) :=
  match r.value with
  | .missing => .ok none
  | cell => cell.toReal.map fun v => some (r.timestamp, v)

/-- The series of the rows that answer a query, newest first. -/
def toSeries (q : HistoryQuery) (rows : List HistoryRow) : Except Error (Series Float) := do
  let points := (← rows.reverse.mapM point?).filterMap id
  return ⟨q.connection, q.column, points.map Prod.fst, points.map Prod.snd⟩

end HistoryRow

end Backpressure
