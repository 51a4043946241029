import Backpressure.Engine.Threads
import Backpressure.Proofs.Slots

/-!
# What a call does

* `Error.isUpstream` : the failures of the surroundings that stale analytics can stand in for;
* `Engine.attempt` : the computation that a call makes when it makes one;
* `Engine.Conclusion` : what a finished computation does, one case for each way in which it can end;
* `Engine.get_of_hit`, `get_of_miss`, `refresh_eq` : a call answers from the cache, or concludes one attempt;
* `Engine.answer_cases` : what a call of either kind does to the cache.
-/

namespace Backpressure
open Number

/-- Whether the history store or the threshold directory failed, or did not answer in time. -/
def Error.isUpstream : Error → Bool
  | .sourceFailed _ _ | .deadline _ _ => true
  | _ => false

/-- Whether a connection turned out to be unknown. -/
def Error.isUnknown : Error → Bool
  | .unknownConnection _ => true
  | _ => false

theorem Error.isUnknown_of_isUpstream {error : Error} (h : error.isUpstream = true) : error.isUnknown = false := by
  cases error <;> first | rfl | cases h

namespace Engine

variable {K : Type}

@[simp] theorem count_cache (e : Engine K) (f : Counters → Counters) : (e.count f).cache = e.cache := rfl

/-- The slots after a lone thread has entered the slot of a connection and left it. -/
def slotsAfter (e : Engine K) (id : String) : Slots := (e.enter id).2.slots.leave (e.enter id).1

theorem slotsAfter_list {e : Engine K} (h : e.slots.list = []) (id : String) : (e.slotsAfter id).list = [] :=
  Slots.enter_leave h id

/-! ## How a computation is concluded -/

/-- What a finished computation does to an engine, and what the call returns. -/
inductive Conclusion (e : Engine K) (id : String) (previous : Option (Entry K)) :
    Except Error (Entry K) → Except Error (Reply K) → Engine K → Prop
  | computed (entry : Entry K) : Conclusion e id previous (.ok entry) (.ok ⟨.computed, entry.analytics⟩)
      ({ e with cache := e.cache.put id entry }.count fun c => { c with computations := c.computations + 1 })
  | unknown {error : Error} (h : error.isUnknown = true) : Conclusion e id previous (.error error) (.error error)
      { e.count fun c => { c with failures := c.failures + 1 } with cache := e.cache.drop id }
  | stale {error : Error} {entry : Entry K} (h : error.isUpstream = true) (hp : previous = some entry) :
      Conclusion e id previous (.error error) (.ok ⟨.stale, entry.analytics.asStale⟩)
        ((e.count fun c => { c with failures := c.failures + 1 }).count fun c =>
          { c with staleFallbacks := c.staleFallbacks + 1 })
  | failed {error : Error} (h : error.isUpstream = true) (hp : previous = none) :
      Conclusion e id previous (.error error) (.error error)
        (e.count fun c => { c with failures := c.failures + 1 })
  | crashed {error : Error} (hup : error.isUpstream = false) (hun : error.isUnknown = false) :
      Conclusion e id previous (.error error) (.error error) e

theorem conclude_spec (e : Engine K) (id : String) (previous : Option (Entry K)) (outcome : Except Error (Entry K)) :
    Conclusion e id previous outcome (e.conclude id previous outcome).1 (e.conclude id previous outcome).2 := by
  cases outcome with
  | ok entry => exact .computed entry
  | error error =>
    cases error with
    | unknownConnection missing => exact .unknown rfl
    | sourceFailed _ _ =>
      cases previous with
      | none => exact .failed rfl rfl
      | some entry => exact .stale rfl rfl
    | deadline _ _ =>
      cases previous with
      | none => exact .failed rfl rfl
      | some entry => exact .stale rfl rfl
    | _ => exact .crashed rfl rfl

/-- Who is in which slot plays no part in a conclusion. -/
theorem conclude_with_slots (e : Engine K) (slots : Slots) (id : String) (previous : Option (Entry K))
    (outcome : Except Error (Entry K)) :
    { e with slots }.conclude id previous outcome =
      ((e.conclude id previous outcome).1, { (e.conclude id previous outcome).2 with slots }) := by
  cases outcome with
  | ok entry => rfl
  | error error =>
    cases error with
    | sourceFailed _ _ => cases previous <;> rfl
    | deadline _ _ => cases previous <;> rfl
    | _ => rfl

theorem conclude_slots (e : Engine K) (id : String) (previous : Option (Entry K)) (outcome : Except Error (Entry K)) :
    (e.conclude id previous outcome).2.slots = e.slots := by
  have h := conclude_spec e id previous outcome
  generalize e.conclude id previous outcome = result at h ⊢
  obtain ⟨answer, after⟩ := result
  cases h <;> rfl

/-! ## Calls -/

variable [Scalar K]

/-- The computation of a call that finds nothing fresh, from the entry that is cached. -/
def attempt (e : Engine K) (s : Sources K) (id : String) : Except Error (Entry K) :=
  Entry.compute s e.config e.stopped id (e.cache.get? id)

/-- The conclusion of that computation. -/
def concluded (e : Engine K) (s : Sources K) (id : String) : Except Error (Reply K) × Engine K :=
  e.conclude id (e.cache.get? id) (e.attempt s id)

theorem refresh_eq (e : Engine K) (s : Sources K) (id : String) :
    e.refresh s id = ((e.concluded s id).1, { (e.concluded s id).2 with slots := e.slotsAfter id }) := by
  show (let r := { e with slots := (e.slots.enter id).2 }.recompute s id (e.cache.get? id)
    (r.1, r.2.leave (e.slots.enter id).1)) = _
  unfold recompute
  rw [conclude_with_slots]
  rfl

theorem hit?_eq_none {e : Engine K} {s : Sources K} {id : String} (h : e.fresh? s id = none) : e.hit? s id = none := by
  simp [hit?, h]

theorem get_of_hit {e : Engine K} {s : Sources K} {id : String} {value : Analytics K} (h : e.fresh? s id = some value) :
    e.get s id = (.ok ⟨.cached, value⟩, e.count fun c => { c with cacheHits := c.cacheHits + 1 }) := by
  unfold get hit?
  rw [h]
  rfl

/-- A call that finds nothing fresh goes on as if it had asked for new analytics. -/
theorem get_of_miss {e : Engine K} {s : Sources K} {id : String} (h : e.fresh? s id = none) :
    e.get s id = e.refresh s id := by
  have henter : (e.enter id).2.hit? s id = none := hit?_eq_none h
  unfold get
  rw [hit?_eq_none h]
  show (let r := (e.enter id).2.hitOrRecompute s id
    (r.1, r.2.leave (e.enter id).1)) = _
  unfold hitOrRecompute
  rw [henter]
  rfl

theorem fresh?_eq_some {e : Engine K} {s : Sources K} {id : String} {value : Analytics K} :
    e.fresh? s id = some value ↔
      ∃ entry, e.cache.get? id = some entry ∧ e.isFresh s.monotonic entry = true ∧ entry.analytics = value := by
  unfold fresh?
  rw [Option.bind_eq_some_iff]
  refine exists_congr fun entry => and_congr_right fun _ => ?_
  split
  · next h => simp [h]
  · next h => simp [h]

/-- The answer to a call and the engine after it. -/
def answer (e : Engine K) (s : Sources K) (call : Call) : Except Error (Reply K) × Engine K :=
  if call.forced then e.refresh s call.id else e.get s call.id

/-- Whether a call returns analytics that it has computed. -/
def isComputed : Except Error (Reply K) → Bool
  | .ok reply => reply.origin = .computed
  | .error _ => false

theorem answer_eq (e : Engine K) (s : Sources K) (call : Call) :
    (e.answer s call = e.refresh s call.id) ∨ ∃ entry, e.cache.get? call.id = some entry ∧
      e.isFresh s.monotonic entry = true ∧ e.answer s call =
        (.ok ⟨.cached, entry.analytics⟩, e.count fun c => { c with cacheHits := c.cacheHits + 1 }) := by
  unfold answer
  split
  · exact .inl rfl
  · cases hfresh : e.fresh? s call.id with
    | some value =>
      obtain ⟨entry, hget, hisFresh, rfl⟩ := fresh?_eq_some.mp hfresh
      exact .inr ⟨entry, hget, hisFresh, get_of_hit hfresh⟩
    | none => exact .inl (get_of_miss hfresh)

/-- A call changes the cache only by putting the entry that it has computed or by dropping its connection. -/
theorem answer_cases (e : Engine K) (s : Sources K) (call : Call) :
    (e.answer s call).2.config = e.config ∧ (e.answer s call).2.stopped = e.stopped ∧
    ((∃ entry, e.attempt s call.id = .ok entry ∧ (e.answer s call).1 = .ok ⟨.computed, entry.analytics⟩ ∧
        (e.answer s call).2.cache = e.cache.put call.id entry) ∨
      isComputed (e.answer s call).1 = false ∧
        ((e.answer s call).2.cache = e.cache ∨ (e.answer s call).2.cache = e.cache.drop call.id)) := by
  rcases e.answer_eq s call with heq | ⟨entry, -, -, heq⟩
  · rw [heq, refresh_eq]
    have hspec := conclude_spec e call.id (e.cache.get? call.id) (e.attempt s call.id)
    unfold concluded
    generalize houtcome : e.attempt s call.id = outcome at hspec ⊢
    generalize e.conclude call.id (e.cache.get? call.id) outcome = result at hspec ⊢
    obtain ⟨answer, after⟩ := result
    cases hspec with
    | computed entry => exact ⟨rfl, rfl, .inl ⟨entry, rfl, rfl, rfl⟩⟩
    | unknown _ => exact ⟨rfl, rfl, .inr ⟨rfl, .inr rfl⟩⟩
    | stale _ _ => exact ⟨rfl, rfl, .inr ⟨rfl, .inl rfl⟩⟩
    | failed _ _ => exact ⟨rfl, rfl, .inr ⟨rfl, .inl rfl⟩⟩
    | crashed _ _ => exact ⟨rfl, rfl, .inr ⟨rfl, .inl rfl⟩⟩
  · rw [heq]
    exact ⟨rfl, rfl, .inr ⟨rfl, .inl rfl⟩⟩

end Engine

end Backpressure
