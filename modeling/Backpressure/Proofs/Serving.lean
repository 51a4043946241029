import Backpressure.Proofs.Reachable

/-!
# How calls are served

* `Way` : the four ways in which a call can be served, `Way.Describes` what each of them means;
* `Engine.Discipline` : what holds of the calls on an engine, `calls_are_served` : it does in every reachable engine;
* `Fails` : the answer to a call is an error or stale analytics, `failed_call_keeps_entries` : such a call changes no
  cached entry, except that an unknown connection is dropped.
-/

namespace Backpressure
open Number Time Trend

variable {K : Type} [Scalar K]

/-- How a call is served: from the cache, by a computation, by stale analytics in place of a failed one, or not. -/
inductive Way where
  | cached
  | computed
  | stale
  | raised
  deriving DecidableEq

/-- What it means that a call on `e`, which gave an answer and left the engine `after`, was served in a way. -/
def Way.Describes (w : Way) (e : Engine K) (s : Sources K) (id : String) (answer : Except Error (Reply K))
    (after : Engine K) : Prop :=
  match w with
  | cached => ∃ entry, e.cache.get? id = some entry ∧ e.isFresh s.monotonic entry = true ∧
      answer = .ok ⟨.cached, entry.analytics⟩ ∧ after = e.count fun c => { c with cacheHits := c.cacheHits + 1 }
  | computed => ∃ entry, e.attempt s id = .ok entry ∧ answer = .ok ⟨.computed, entry.analytics⟩ ∧
      after.cache.get? id = some entry ∧ after.cachedIds.getLast? = some id
  -- The entry that stands in is left as it was, so that a call after its expiry makes another attempt.
  | stale => ∃ entry error, e.cache.get? id = some entry ∧ e.attempt s id = .error error ∧ error.isUpstream = true ∧
      answer = .ok ⟨.stale, { entry.analytics with stale := true }⟩ ∧ after.cache = e.cache ∧
      ∀ s', e.isFresh s'.monotonic entry = false → (after.get s' id).1 = (after.concluded s' id).1
  | raised => ∃ error, answer = .error error

namespace Engine

/-- A computation of an entry, begun from some entry or none, while the monotonic clock showed what the entry says. -/
def ComputedThen (config : EngineConfig K) (id : String) (entry : Entry K) : Prop :=
  ∃ s stopped previous, s.monotonic = entry.computedMonotonic ∧
    Entry.compute s config stopped id previous = .ok entry

/-- What holds of the calls for a connection. -/
structure Discipline (e : Engine K) (s : Sources K) (id : String) : Prop where
  get : ∃! w : Way, w.Describes e s id (e.get s id).1 (e.get s id).2
  refresh : ∃! w : Way, w ≠ .cached ∧ w.Describes e s id (e.refresh s id).1 (e.refresh s id).2
  /-- The first way is the one taken for fresh entries, and it asks nothing of the surroundings but the time. -/
  cached : ∀ entry, e.cache.get? id = some entry → e.isFresh s.monotonic entry = true → ∀ s',
    s'.monotonic = s.monotonic → Way.cached.Describes e s' id (e.get s' id).1 (e.get s' id).2
  notStale : ∀ other entry, e.cache.get? other = some entry → entry.analytics.stale = false
  /-- Analytics that are not stale were computed in the call, or so short a time ago that they are fresh. -/
  age : ∀ reply, (e.get s id).1 = .ok reply → reply.value.stale = false →
    (∃ entry, e.attempt s id = .ok entry ∧ reply.value = entry.analytics) ∨
    ∃ entry, e.cache.get? id = some entry ∧ reply.value = entry.analytics ∧
      Scalar.lt (s.monotonic - entry.computedMonotonic) e.config.refreshSeconds = true ∧ ComputedThen e.config id entry

/-! ## Serving -/

theorem inherited_computedThen (allowed : Sources K → Prop) : Inherited allowed (ComputedThen (K := K)) :=
  fun s _ _ stopped _ previous _ _ hentry =>
    ⟨s, stopped, previous, (Entry.computedMonotonic_of_compute hentry).symm, hentry⟩

theorem ComputedThen.stale_eq_false {config : EngineConfig K} {id : String} {entry : Entry K}
    (h : ComputedThen config id entry) : entry.analytics.stale = false := by
  obtain ⟨s, stopped, previous, -, hentry⟩ := h
  exact Entry.stale_eq_false_of_compute hentry

variable {e : Engine K} {s : Sources K} {id : String}

theorem describes_cached {entry : Entry K} (hget : e.cache.get? id = some entry)
    (hfresh : e.isFresh s.monotonic entry = true) : Way.cached.Describes e s id (e.get s id).1 (e.get s id).2 := by
  rw [get_of_hit (fresh?_eq_some.mpr ⟨entry, hget, hfresh, rfl⟩)]
  exact ⟨entry, hget, hfresh, rfl, rfl⟩

theorem fresh?_eq_none {entry : Entry K} (hget : e.cache.get? id = some entry)
    (hfresh : e.isFresh s.monotonic entry = false) : e.fresh? s id = none := by
  simp [fresh?, hget, hfresh]

/-- Once the entry of a connection has expired, a call makes an attempt. -/
theorem get_eq_concluded {entry : Entry K} (hget : e.cache.get? id = some entry)
    (hfresh : e.isFresh s.monotonic entry = false) : (e.get s id).1 = (e.concluded s id).1 := by
  rw [get_of_miss (fresh?_eq_none hget hfresh), refresh_eq]

/-- A call that makes an attempt is served in one of the three other ways. -/
theorem describes_refresh (hcache : e.cache.WellFormed) :
    ∃ w : Way, w ≠ .cached ∧ w.Describes e s id (e.refresh s id).1 (e.refresh s id).2 := by
  rw [refresh_eq]
  have hspec := conclude_spec e id (e.cache.get? id) (e.attempt s id)
  unfold concluded
  generalize houtcome : e.attempt s id = outcome at hspec ⊢
  generalize e.conclude id (e.cache.get? id) outcome = result at hspec ⊢
  obtain ⟨answer, after⟩ := result
  cases hspec with
  | computed entry =>
    obtain ⟨others, hids⟩ := hcache.ids_put_eq_concat id entry
    refine ⟨.computed, by decide, entry, houtcome, rfl, hcache.get?_put_self id entry, ?_⟩
    show (e.cache.put id entry).ids.getLast? = some id
    rw [hids, List.getLast?_concat]
  | unknown _ => exact ⟨.raised, by decide, _, rfl⟩
  | stale hup hprevious =>
    refine ⟨.stale, by decide, _, _, hprevious, houtcome, hup, rfl, rfl, ?_⟩
    intro s' hfresh
    exact get_eq_concluded hprevious hfresh
  | failed _ _ => exact ⟨.raised, by decide, _, rfl⟩
  | crashed _ _ => exact ⟨.raised, by decide, _, rfl⟩

/-- The answer tells the way. -/
theorem way_unique {w w' : Way} {answer : Except Error (Reply K)} {after : Engine K}
    (h : w.Describes e s id answer after) (h' : w'.Describes e s id answer after) : w = w' := by
  cases w <;> cases w' <;> first | rfl | (simp only [Way.Describes] at h h'; grind)

theorem existsUnique_way {answer : Except Error (Reply K)} {after : Engine K} {p : Way → Prop}
    (h : ∃ w : Way, p w ∧ w.Describes e s id answer after) : ∃! w : Way, p w ∧ w.Describes e s id answer after := by
  obtain ⟨w, hp, hw⟩ := h
  exact ⟨w, ⟨hp, hw⟩, fun w' hw' => way_unique hw'.2 hw⟩

/-- Every call on the engine of a reachable machine is served in exactly one way, and no cached analytics are stale. -/
theorem calls_are_served {m : Machine K} {allowed : Sources K → Prop} (h : m.Reachable allowed) (s : Sources K)
    (id : String) : m.engine.Discipline s id := by
  have hkeeps := (h.keeps (inherited_computedThen allowed)).engine
  generalize m.engine = e at hkeeps
  have hrefresh : ∃ w : Way, w ≠ .cached ∧ w.Describes e s id (e.refresh s id).1 (e.refresh s id).2 :=
    describes_refresh hkeeps.wellFormed
  refine ⟨?_, existsUnique_way hrefresh, ?_, ?_, ?_⟩
  · cases hfresh : e.fresh? s id with
    | some value =>
      obtain ⟨entry, hget, hisFresh, -⟩ := fresh?_eq_some.mp hfresh
      exact ⟨.cached, describes_cached hget hisFresh, fun w hw => way_unique hw (describes_cached hget hisFresh)⟩
    | none =>
      obtain ⟨w, -, hw⟩ := hrefresh
      rw [get_of_miss hfresh]
      exact ⟨w, hw, fun w' hw' => way_unique hw' hw⟩
  · intro entry hget hfresh s' hs'
    exact describes_cached hget (hs' ▸ hfresh)
  · intro other entry hget
    exact (hkeeps.entries other entry hget).stale_eq_false
  · intro reply hreply hstale
    cases hfresh : e.fresh? s id with
    | some value =>
      obtain ⟨entry, hget, hisFresh, rfl⟩ := fresh?_eq_some.mp hfresh
      rw [get_of_hit hfresh] at hreply
      cases hreply
      exact .inr ⟨entry, hget, rfl, hisFresh, hkeeps.entries id entry hget⟩
    | none =>
      rw [get_of_miss hfresh] at hreply
      obtain ⟨w, hne, hw⟩ := hrefresh
      rw [hreply] at hw
      cases w with
      | cached => exact absurd rfl hne
      | computed =>
        obtain ⟨entry, hattempt, hvalue, -⟩ := hw
        cases hvalue
        exact .inl ⟨entry, hattempt, rfl⟩
      | stale =>
        obtain ⟨entry, error, -, -, -, hvalue, -⟩ := hw
        cases hvalue
        cases hstale
      | raised =>
        obtain ⟨error, herror⟩ := hw
        cases herror

/-- A call while the entry is fresh is served from the cache. -/
theorem calls_on_warm_are_served :
    (Machine.mk warm .quiet []).Reachable (fun _ => True) ∧ warm.Discipline .quiet "orders" ∧
      (warm.get .quiet "orders").1.toOption.map (·.origin) = some .cached :=
  ⟨warm_reachable, calls_are_served warm_reachable .quiet "orders", rfl⟩

/-! ## Failing -/

/-- Whether a call raises an error or returns stale analytics. -/
def Fails : Except Error (Reply K) → Prop
  | .ok reply => reply.value.stale = true
  | .error _ => True

instance : DecidablePred (Fails (K := K)) := fun answer =>
  match answer with
  | .ok reply => inferInstanceAs (Decidable (reply.value.stale = true))
  | .error _ => inferInstanceAs (Decidable True)

/-- Whether a call says that its connection is unknown. -/
def saysUnknown : Except Error (Reply K) → Bool
  | .ok _ => false
  | .error error => error.isUnknown

omit [Scalar K] in
/-- A conclusion that is a failure leaves the cache as it is or drops the unknown connection. -/
theorem Conclusion.cache_of_fails {previous : Option (Entry K)} {outcome : Except Error (Entry K)}
    {answer : Except Error (Reply K)} {after : Engine K} (h : Conclusion e id previous outcome answer after)
    (hnew : ∀ entry, outcome = .ok entry → entry.analytics.stale = false) (hfails : Fails answer) :
    after.cache = if saysUnknown answer then e.cache.drop id else e.cache := by
  cases h with
  | computed entry => exact absurd hfails (by simp [Fails, hnew entry rfl])
  | unknown hun => simp [saysUnknown, hun]
  | stale _ _ => rfl
  | failed hup _ => simp [saysUnknown, Error.isUnknown_of_isUpstream hup]
  | crashed _ hun => simp [saysUnknown, hun]

/-- A call that makes an attempt fails with it. -/
theorem fails_refresh_iff : Fails (e.refresh s id).1 ↔ ∃ error, e.attempt s id = .error error := by
  rw [refresh_eq]
  have hspec := conclude_spec e id (e.cache.get? id) (e.attempt s id)
  unfold concluded
  generalize houtcome : e.attempt s id = outcome at hspec ⊢
  generalize e.conclude id (e.cache.get? id) outcome = result at hspec ⊢
  obtain ⟨answer, after⟩ := result
  cases hspec with
  | computed entry => simp [Fails, Entry.stale_eq_false_of_compute houtcome]
  | unknown _ => exact ⟨fun _ => ⟨_, rfl⟩, fun _ => trivial⟩
  | stale _ _ => exact ⟨fun _ => ⟨_, rfl⟩, fun _ => rfl⟩
  | failed _ _ => exact ⟨fun _ => ⟨_, rfl⟩, fun _ => trivial⟩
  | crashed _ _ => exact ⟨fun _ => ⟨_, rfl⟩, fun _ => trivial⟩

theorem refresh_cache_of_fails (hfails : Fails (e.refresh s id).1) :
    (e.refresh s id).2.cache = if saysUnknown (e.refresh s id).1 then e.cache.drop id else e.cache := by
  rw [refresh_eq] at hfails ⊢
  exact (conclude_spec e id _ _).cache_of_fails (fun _ => Entry.stale_eq_false_of_compute) hfails

/-- A call that fails has made an attempt. -/
theorem answer_eq_refresh_of_fails (hstale : ∀ other entry, e.cache.get? other = some entry →
    entry.analytics.stale = false) {call : Call} (hfails : Fails (e.answer s call).1) :
    e.answer s call = e.refresh s call.id := by
  rcases e.answer_eq s call with heq | ⟨entry, hget, -, heq⟩
  · exact heq
  · rw [heq] at hfails
    exact absurd hfails (by simp [Fails, hstale _ _ hget])

/-- A call that raises an error or returns stale analytics keeps all cached entries and their order, except that an
unknown connection is dropped, and when no other call is in progress then none is. -/
theorem failed_call_keeps_entries {m : Machine K} {allowed : Sources K → Prop} (h : m.Reachable allowed)
    (s : Sources K) (call : Call) (hfails : Fails (m.engine.answer s call).1) :
    let (answer, after) := m.engine.answer s call
    (∀ id, after.cache.get? id = if saysUnknown answer ∧ id = call.id then none else m.engine.cache.get? id) ∧
    (after.cachedIds =
      if saysUnknown answer then m.engine.cachedIds.filter (· != call.id) else m.engine.cachedIds) ∧
    ((∀ t ∈ m.threads, t.answer?.isSome) → after.stats.computingConnections = 0) := by
  have hstale := fun id entry hget =>
    ((h.keeps (inherited_computedThen allowed)).engine.entries id entry hget).stale_eq_false
  have hrefresh := answer_eq_refresh_of_fails hstale hfails
  rw [hrefresh] at hfails ⊢
  have hcache := refresh_cache_of_fails hfails
  dsimp only
  refine ⟨fun id => ?_, ?_, fun hdone => ?_⟩
  · rw [hcache]
    split
    · next hunknown => simp [Cache.get?_drop, hunknown]
    · next hunknown => simp [hunknown]
  · unfold cachedIds
    rw [hcache]
    split
    · exact Cache.ids_drop m.engine.cache call.id
    · rfl
  · have hrest := h.tallied.slots_list hdone
    rw [refresh_eq]
    show ((m.engine.slotsAfter call.id).ids.length) = 0
    rw [Slots.ids, slotsAfter_list hrest]
    rfl

/-- A refresh whose thresholds cannot be read returns stale analytics and keeps the entry. -/
theorem failed_refresh_keeps_warm :
    let s : Sources Float := { Sources.quiet with thresholds := fun _ => .error (.raised "OSError" "gone") }
    Fails (warm.answer s ⟨"orders", true⟩).1 ∧
      (warm.answer s ⟨"orders", true⟩).2.cache.get? "orders" = warm.cache.get? "orders" ∧
      (warm.cache.get? "orders").isSome = true := by
  intro s
  have hfails : Fails (warm.answer s ⟨"orders", true⟩).1 := rfl
  exact ⟨hfails, (failed_call_keeps_entries warm_reachable s ⟨"orders", true⟩ hfails).1 "orders", rfl⟩

end Engine

end Backpressure
