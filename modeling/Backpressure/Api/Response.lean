import Backpressure.Api.Route
import Backpressure.Document
import Backpressure.Engine.Basic

/-!
# Responses of the HTTP interface

* `Response` : a status with a document or a text;
* `Response.failure` : the response to a call of the engine that failed;
* `EtaBody`, `ConnectionBody`, `BackpressureBody`, `NextIntervalBody` : what responses carry, each with the analytics
  that it is taken from and its `encode`;
* `ConnectionBody.isWritable` : whether the numbers of a body can be written;
* `Api.respond` : the response of an engine to a method and a target.
-/

namespace Backpressure
open Number Time

/-- The body of a response. -/
inductive Body (K : Type) where
  | document (d : Document K)
  | text (s : String)

/-- A response. -/
structure Response (K : Type) where
  status : Nat
  body : Body K

namespace Response

variable {K : Type}

/-- A response of a status with a short explanation. -/
def detail (status : Nat) (explanation : String) : Response K :=
  ⟨status, .document (.object [("detail", .text explanation)])⟩

def notFound : Response K := detail 404 "Not Found"

/-- The response to a method that a path does not answer to. -/
def methodNotAllowed : Response K := detail 405 "Method Not Allowed"

/-- The response where something failed that should not have. -/
def internalError : Response K := ⟨500, .text "Internal Server Error"⟩

/-- A response as it is sent to a method: to `HEAD` without its body. -/
def forMethod (method : String) (r : Response K) : Response K :=
  if method = "HEAD" then { r with body := .text "" } else r

def document (d : Document K) : Response K := ⟨200, .document d⟩

/-- The response to a call of the engine that failed. -/
def failure : Error → Response K
  | .unknownConnection _ => detail 404 "connection_id not found"
  | .deadline _ _ => detail 504 "history repository timeout"
  | .sourceFailed _ _ => detail 503 "analytics temporarily unavailable"
  | _ => internalError

end Response

/-! ## What responses carry -/

namespace Api

/-- A time as responses write it: in UTC, marked by a `Z`. -/
def time (t : Timestamp) : String := Instant.isoZulu ⟨t.utcMicros⟩

/-- A value of a body, `null` where it is absent. -/
def nullable {K α : Type} (write : α → Document K) (value : Option α) : Document K :=
  match value with
  | none => .null
  | some a => write a

/-- The time until a metric reaches its limit. -/
structure EtaBody where
  status : String
  millis : Option Int

namespace EtaBody

def ofEta (e : Eta) : EtaBody := ⟨e.status, e.millis⟩

def encode {K : Type} (b : EtaBody) : Document K :=
  .object [("status", .text b.status), ("millis", nullable .whole b.millis)]

end EtaBody

/-- All that is known of a connection; its limits are numbers. -/
structure ConnectionBody (K : Type) where
  connection : String
  computedAt : Timestamp
  bytesEta : EtaBody
  countEta : EtaBody
  bytesNext : Option Int
  countNext : Option Int
  nextAt : Timestamp
  bytesPercentage : Option K
  countPercentage : Option K
  bytesLimit : Option Int
  countLimit : Option Int
  scores : List (String × Option (List (String × Option K)))
  stale : Bool

namespace ConnectionBody

variable {K : Type}

def ofAnalytics (a : Analytics K) : ConnectionBody K where
  connection := a.connection
  computedAt := a.computedAt
  bytesEta := .ofEta a.eta.bytes
  countEta := .ofEta a.eta.count
  bytesNext := a.next.bytes
  countNext := a.next.count
  nextAt := a.nextAt
  bytesPercentage := a.percentage.bytes
  countPercentage := a.percentage.count
  bytesLimit := a.limit.bytes.map Limit.toInt
  countLimit := a.limit.count.map Limit.toInt
  scores := a.scores
  stale := a.stale

def encode (b : ConnectionBody K) : Document K :=
  .object [
    ("connection_id", .text b.connection),
    ("computed_at", .text (time b.computedAt)),
    ("time_to_bytes_backpressure", b.bytesEta.encode),
    ("time_to_count_backpressure", b.countEta.encode),
    ("next_interval_bytes", nullable .whole b.bytesNext),
    ("next_interval_count", nullable .whole b.countNext),
    ("next_interval_at", .text (time b.nextAt)),
    ("next_interval_percentage_use_bytes", nullable .real b.bytesPercentage),
    ("next_interval_percentage_use_count", nullable .real b.countPercentage),
    ("bytes_limit", nullable .whole b.bytesLimit),
    ("count_limit", nullable .whole b.countLimit),
    ("scores", .object (b.scores.map fun metric =>
      (metric.1, nullable (fun scores => .object (scores.map fun s => (s.1, nullable .real s.2))) metric.2))),
    ("stale", .flag b.stale)]

/-- The most digits of an integer that is written. -/
def maxDigits : Nat := 4300

/-- Whether the numbers of a body can be written: percentages that are finite, and limits that are not too long. -/
def isWritable [Scalar K] (b : ConnectionBody K) : Bool :=
  b.bytesPercentage.all Scalar.isFinite && b.countPercentage.all Scalar.isFinite &&
    b.bytesLimit.all (·.natAbs < tenTo maxDigits) && b.countLimit.all (·.natAbs < tenTo maxDigits)

end ConnectionBody

/-- The times until both metrics of a connection reach their limits. -/
structure BackpressureBody where
  connection : String
  bytesEta : EtaBody
  countEta : EtaBody
  stale : Bool

namespace BackpressureBody

variable {K : Type}

def ofAnalytics (id : String) (a : Analytics K) : BackpressureBody :=
  ⟨id, .ofEta a.eta.bytes, .ofEta a.eta.count, a.stale⟩

def encode (b : BackpressureBody) : Document K :=
  .object [
    ("connection_id", .text b.connection),
    ("queued_bytes", b.bytesEta.encode),
    ("queued_count", b.countEta.encode),
    ("stale", .flag b.stale)]

end BackpressureBody

/-- The predicted sizes of a connection. -/
structure NextIntervalBody where
  connection : String
  target : Timestamp
  bytes : Option Int
  count : Option Int
  stale : Bool

namespace NextIntervalBody

variable {K : Type}

def ofAnalytics (id : String) (a : Analytics K) : NextIntervalBody :=
  ⟨id, a.nextAt, a.next.bytes, a.next.count, a.stale⟩

def encode (b : NextIntervalBody) : Document K :=
  .object [
    ("connection_id", .text b.connection),
    ("target_timestamp", .text (time b.target)),
    ("queued_bytes", nullable .whole b.bytes),
    ("queued_count", nullable .whole b.count),
    ("stale", .flag b.stale)]

end NextIntervalBody

/-! ## Endpoints -/

variable {K : Type}

def stats (s : Stats) : Document K :=
  let number (n : Nat) : Document K := .whole n
  .object [
    ("cache_hits", number s.counters.cacheHits),
    ("computations", number s.counters.computations),
    ("stale_fallbacks", number s.counters.staleFallbacks),
    ("failures", number s.counters.failures),
    ("cached_connections", number s.cachedConnections),
    ("computing_connections", number s.computingConnections)]

variable [Scalar K]

/-- The response with the analytics of a connection. -/
def analyticsResponse (a : Analytics K) : Response K :=
  let body := ConnectionBody.ofAnalytics a
  if body.isWritable then .document body.encode else .internalError

/-- The response to a call for the analytics of a connection. -/
def load (e : Engine K) (s : Sources K) (id : String) (present : Analytics K → Response K) : Response K × Engine K :=
  match e.get s id with
  | (.ok reply, e) => (present reply.value, e)
  | (.error error, e) => (.failure error, e)

def serve (e : Engine K) (s : Sources K) : Route → Response K × Engine K
  | .health => (.document (.object [("status", .text "ok")]), e)
  | .stats => (.document (stats e.stats), e)
  | .connection id => load e s id analyticsResponse
  | .backpressure id => load e s id fun a => .document (BackpressureBody.ofAnalytics id a).encode
  | .nextInterval id => load e s id fun a => .document (NextIntervalBody.ofAnalytics id a).encode
  | .cache id =>
    let (present, e) := e.invalidate id
    (.document (.object [("invalidated", .flag present)]), e)

/-- The response to a method and a target. -/
def respond (e : Engine K) (s : Sources K) (method target : String) : Response K × Engine K :=
  match Route.ofTarget? target with
  | none => (.forMethod method .notFound, e)
  | some route => if route.method = method then serve e s route else (.forMethod method .methodNotAllowed, e)

end Api

end Backpressure
