import Backpressure.Api.Response
import Backpressure.Engine.Threads
import Backpressure.Runner.Loop
import Backpressure.Service

/-!
# Runs of an engine and its surroundings

* `Event` : what can happen to an engine or to its surroundings, `Answer` what it is answered with;
* `Installation.step` : the answer to an event and the installation after it;
* `Installation.run` : the answers to events one after another.
-/

namespace Backpressure
open Number Time

/-- What can happen to an engine or to its surroundings. -/
inductive Event (K : Type) where
  | register (id : String) (bytes : Reading) (count : Option Limit)
  | remove (id : String)
  | record (id : String) (points : List (Timestamp × Reading × Reading))
  | pin (series : Series K)
  | failHistory (e : Error) (metrics : List Metric)
  | failThresholds (e : Error)
  | failListing (e : Error)
  | hold (seconds : K) (metrics : List Metric)
  | recover
  | setClock (t : Timestamp)
  | setMonotonic (x : K)
  | get (id : String)
  | refresh (id : String)
  | timeToBackpressure (id : String) (metric : Metric)
  | nextInterval (id : String) (metric : Metric)
  | invalidate (id : String)
  | invalidateAll
  | close
  | pass (ids : List String)
  | request (method target : String)
  | overlap (calls : List Call)

/-- What an event is answered with. -/
inductive Answer (K : Type) where
  | done
  | thresholds (t : Thresholds)
  | recorded (points : Nat)
  | reply (r : Reply K)
  | eta (e : Eta)
  | size (n : Option Int)
  | dropped (present : Bool)
  | counts (c : PassCounts)
  | response (r : Response K)
  | replies (list : List (Except Error (Reply K)))

namespace Installation

variable {K : Type}

/-- An installation whose surroundings have changed. -/
def withSite (i : Installation K) (answer : Except Error (Answer K)) (site : Site K) :
    Except Error (Answer K) × Installation K := (answer, { i with site })

/-- An installation whose engine has changed. -/
def withEngine (i : Installation K) (answer : Except Error (Answer K)) (engine : Engine K) :
    Except Error (Answer K) × Installation K := (answer, { i with engine })

variable [Scalar K]

/-- The answer to an event and the installation after it. -/
def step (i : Installation K) : Event K → Except Error (Answer K) × Installation K
  | .register id bytes count =>
    let (outcome, site) := i.site.register id bytes count
    i.withSite (outcome.map .thresholds) site
  | .remove id => i.withSite (.ok .done) (i.site.remove id)
  | .record id points =>
    let (outcome, site) := i.site.record id points
    i.withSite (outcome.map fun _ => .recorded points.length) site
  | .pin series => i.withSite (.ok .done) (i.site.pin series)
  | .failHistory e metrics => i.withSite (.ok .done) (i.site.failHistory e metrics)
  | .failThresholds e => i.withSite (.ok .done) (i.site.failThresholds e)
  | .failListing e => i.withSite (.ok .done) (i.site.failListing e)
  | .hold seconds metrics => i.withSite (.ok .done) (i.site.hold seconds metrics)
  | .recover => i.withSite (.ok .done) i.site.recover
  | .setClock clock => i.withSite (.ok .done) { i.site with clock }
  | .setMonotonic monotonic => i.withSite (.ok .done) { i.site with monotonic }
  | .get id =>
    let (outcome, engine) := i.engine.get i.site.sources id
    i.withEngine (outcome.map .reply) engine
  | .refresh id =>
    let (outcome, engine) := i.engine.refresh i.site.sources id
    i.withEngine (outcome.map .reply) engine
  | .timeToBackpressure id metric =>
    let (outcome, engine) := i.engine.timeToBackpressure i.site.sources id metric
    i.withEngine (outcome.map .eta) engine
  | .nextInterval id metric =>
    let (outcome, engine) := i.engine.nextInterval i.site.sources id metric
    i.withEngine (outcome.map .size) engine
  | .invalidate id =>
    let (present, engine) := i.engine.invalidate id
    i.withEngine (.ok (.dropped present)) engine
  | .invalidateAll => i.withEngine (.ok .done) i.engine.invalidateAll
  | .close => i.withEngine (.ok .done) i.engine.close
  | .pass ids =>
    let (pass, engine) := Pass.run i.engine i.site.sources ids
    i.withEngine (pass.counts.map .counts) engine
  | .request method target =>
    let (response, engine) := Api.respond i.engine i.site.sources method target
    i.withEngine (.ok (.response response)) engine
  | .overlap calls =>
    let (answers, engine) := Machine.overlap i.engine i.site.sources calls
    i.withEngine (.ok (.replies answers)) engine

/-- The answers to events one after another and the installation after them. -/
def run (i : Installation K) : List (Event K) → List (Except Error (Answer K)) × Installation K
  | [] => ([], i)
  | event :: rest =>
    let (answer, i) := i.step event
    let (answers, i) := run i rest
    (answer :: answers, i)

/-- A round of the runner over an installation. -/
def round (i : Installation K) : Round × Installation K :=
  let (r, engine) := Round.make i.site.connections i.site.sources i.engine
  (r, { i with engine })

end Installation

end Backpressure
