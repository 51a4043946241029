import Backpressure.Cache
import Backpressure.Engine.Recompute
import Backpressure.Slots

/-!
# The analytics engine

* `Engine` : the configuration, the cache, the slots of recomputations in progress and the counters;
* `Engine.hit?` : the cached analytics of a connection if they are fresh;
* `Engine.recompute` : computes the entry of a connection anew. A connection that turns out to be unknown is dropped;
  when the surroundings fail, the analytics from before are returned as stale ones if there are any;
* `Engine.get`, `Engine.refresh` : the analytics of a connection, from the cache while they are fresh or in any case
  anew;
* `Engine.invalidate`, `invalidateAll`, `close`.
-/

namespace Backpressure
open Number Trend

/-- What an engine has counted. -/
structure Counters where
  cacheHits : Nat
  computations : Nat
  staleFallbacks : Nat
  failures : Nat
  deriving DecidableEq, Repr

/-- Where returned analytics come from. -/
inductive Origin where
  | cached
  | computed
  | stale
  deriving DecidableEq, Repr

/-- Analytics that a call returns. -/
structure Reply (K : Type) where
  origin : Origin
  value : Analytics K
  deriving DecidableEq

/-- An engine. -/
structure Engine (K : Type) where
  config : EngineConfig K
  cache : Cache (Entry K)
  slots : Slots
  counters : Counters
  /-- Whether the workers that fetch the history have been shut down. -/
  stopped : Bool
  deriving DecidableEq

namespace Engine

variable {K : Type}

/-- An engine that has computed nothing, if there are models of its kind. -/
def create (registry : Registry K) (config : EngineConfig K) : Except Error (Engine K) :=
  if registry.contains config.model.kind then
    .ok ⟨config, Cache.empty config.maxCachedConnections, Slots.empty, ⟨0, 0, 0, 0⟩, false⟩
  else .error (.unknownModelKind config.model.kind registry.kinds)

/-- The ids with cached analytics, in the order in which they were last computed. -/
def cachedIds (e : Engine K) : List String := e.cache.ids

/-- Drops the cached analytics of a connection and says whether there were any. -/
def invalidate (e : Engine K) (id : String) : Bool × Engine K :=
  let (present, cache) := e.cache.invalidate id
  (present, { e with cache })

def invalidateAll (e : Engine K) : Engine K := { e with cache := e.cache.clear }

/-- Shuts down the workers that fetch the history. -/
def close (e : Engine K) : Engine K := { e with stopped := true }

/-! ## The steps of a call -/

def count (e : Engine K) (f : Counters → Counters) : Engine K := { e with counters := f e.counters }

/-- The engine after a thread has registered for the slot of a connection and entered it. -/
def enter (e : Engine K) (id : String) : Ticket × Engine K :=
  let (ticket, slots) := e.slots.enter id
  (ticket, { e with slots })

/-- The engine after a thread has left a slot. -/
def leave (e : Engine K) (ticket : Ticket) : Engine K := { e with slots := e.slots.leave ticket }

variable [Scalar K]

/-- Whether an entry is younger than the refresh interval. -/
def isFresh (e : Engine K) (monotonic : K) (entry : Entry K) : Bool :=
  Scalar.lt (monotonic - entry.computedMonotonic) e.config.refreshSeconds

/-- The cached analytics of a connection if they are fresh. -/
def fresh? (e : Engine K) (s : Sources K) (id : String) : Option (Analytics K) :=
  (e.cache.get? id).bind fun entry => if e.isFresh s.monotonic entry then some entry.analytics else none

/-- Returns fresh cached analytics, if there are any. -/
def hit? (e : Engine K) (s : Sources K) (id : String) : Option (Reply K × Engine K) :=
  (e.fresh? s id).map fun value =>
    (⟨.cached, value⟩, e.count fun c => { c with cacheHits := c.cacheHits + 1 })

/-- What a finished computation does to the engine and what the call returns. -/
def conclude (e : Engine K) (id : String) (previous : Option (Entry K)) :
    Except Error (Entry K) → Except Error (Reply K) × Engine K
  | .ok entry =>
    (.ok ⟨.computed, entry.analytics⟩,
      { e with cache := e.cache.put id entry }.count fun c => { c with computations := c.computations + 1 })
  | .error error =>
    let failed := e.count fun c => { c with failures := c.failures + 1 }
    match error with
    | .unknownConnection _ => (.error error, { failed with cache := e.cache.drop id })
    | .sourceFailed _ _ | .deadline _ _ =>
      match previous with
      | none => (.error error, failed)
      | some entry =>
        (.ok ⟨.stale, entry.analytics.asStale⟩,
          failed.count fun c => { c with staleFallbacks := c.staleFallbacks + 1 })
    | _ => (.error error, e)

/-- Computes the entry of a connection anew from an entry read before. -/
def recompute (e : Engine K) (s : Sources K) (id : String) (previous : Option (Entry K)) :
    Except Error (Reply K) × Engine K :=
  e.conclude id previous (Entry.compute s e.config e.stopped id previous)

/-- Returns fresh cached analytics or else computes the entry of a connection anew from the one that is cached. -/
def hitOrRecompute (e : Engine K) (s : Sources K) (id : String) : Except Error (Reply K) × Engine K :=
  match e.hit? s id with
  | some (reply, e) => (.ok reply, e)
  | none => e.recompute s id (e.cache.get? id)

/-! ## Calls -/

/-- The analytics of a connection, from the cache while they are fresh. Inside the slot the cache is read again, since
another thread may have finished a recomputation meanwhile. -/
def get (e : Engine K) (s : Sources K) (id : String) : Except Error (Reply K) × Engine K :=
  match e.hit? s id with
  | some (reply, e) => (.ok reply, e)
  | none =>
    let (ticket, e) := e.enter id
    let (outcome, e) := e.hitOrRecompute s id
    (outcome, e.leave ticket)

/-- The analytics of a connection, computed anew even if the cached ones are fresh. -/
def refresh (e : Engine K) (s : Sources K) (id : String) : Except Error (Reply K) × Engine K :=
  let (ticket, e) := e.enter id
  let (outcome, e) := e.recompute s id (e.cache.get? id)
  (outcome, e.leave ticket)

/-- The time until a metric of a connection reaches its limit. -/
def timeToBackpressure (e : Engine K) (s : Sources K) (id : String) (metric : Metric) : Except Error Eta × Engine K :=
  let (outcome, e) := e.get s id
  (outcome.map fun reply => reply.value.eta.get metric, e)

/-- The predicted size of a metric of a connection. -/
def nextInterval (e : Engine K) (s : Sources K) (id : String) (metric : Metric) :
    Except Error (Option Int) × Engine K :=
  let (outcome, e) := e.get s id
  (outcome.map fun reply => reply.value.next.get metric, e)

end Engine

/-! ## What an engine reports about itself -/

/-- The counters of an engine with the sizes of its cache and of its slots. -/
structure Stats where
  counters : Counters
  cachedConnections : Nat
  computingConnections : Nat
  deriving DecidableEq, Repr

def Engine.stats {K : Type} (e : Engine K) : Stats := ⟨e.counters, e.cache.size, e.slots.ids.length⟩

end Backpressure
