import Backpressure.Proofs.Dispatch
import Backpressure.Proofs.Invalidation
import Backpressure.Proofs.Raising
import Backpressure.Proofs.Serving

/-!
# What the counters account for

* `Counters.of` : what an answer counts for, `Counters.total` : what answers count for together;
* `Thread.advance_counters` : a step of a thread adds what the answer counts for that the thread comes to know,
  `Machine.counters_run` : so the counters account for all answers that threads have come to know;
* `Installation.counters_run` : and for those to all calls that the events of a run make;
* `Engine.Bounded` : the bounds of the counters and of the cache, `Engine.Reachable.bounded` : they hold in every
  reachable engine;
* `Machine.counters_account_for_calls`.
-/

namespace Backpressure
open Number Trend

variable {K : Type}

/-! ## Counters -/

namespace Counters

instance : Zero Counters := ⟨0, 0, 0, 0⟩

instance : Add Counters :=
  ⟨fun c d => ⟨c.cacheHits + d.cacheHits, c.computations + d.computations, c.staleFallbacks + d.staleFallbacks,
    c.failures + d.failures⟩⟩

@[simp] theorem cacheHits_add (c d : Counters) : (c + d).cacheHits = c.cacheHits + d.cacheHits := rfl
@[simp] theorem computations_add (c d : Counters) : (c + d).computations = c.computations + d.computations := rfl
@[simp] theorem staleFallbacks_add (c d : Counters) :
    (c + d).staleFallbacks = c.staleFallbacks + d.staleFallbacks := rfl
@[simp] theorem failures_add (c d : Counters) : (c + d).failures = c.failures + d.failures := rfl
@[simp] theorem zero_eq : (0 : Counters) = ⟨0, 0, 0, 0⟩ := rfl

theorem ext_iff {c d : Counters} : c = d ↔ c.cacheHits = d.cacheHits ∧ c.computations = d.computations ∧
    c.staleFallbacks = d.staleFallbacks ∧ c.failures = d.failures := by
  cases c
  cases d
  exact Counters.mk.injEq .. ▸ Iff.rfl

instance : AddCancelCommMonoid Counters where
  add_assoc a b c := by simp [ext_iff, Nat.add_assoc]
  zero_add a := by simp [ext_iff]
  add_zero a := by simp [ext_iff]
  add_comm a b := by simp [ext_iff, Nat.add_comm]
  add_left_cancel a b c h := by simpa [ext_iff] using h
  nsmul := nsmulRec

/-- What an answer counts for: a stale value for a failure and a fallback, another value for a computation or for a hit,
and a documented error for a failure. -/
def of : Except Error (Reply K) → Counters
  | .ok reply =>
    if reply.value.stale then ⟨0, 0, 1, 1⟩
    else if reply.origin = .computed then ⟨0, 1, 0, 0⟩ else ⟨1, 0, 0, 0⟩
  | .error error => if error.isDocumented then ⟨0, 0, 0, 1⟩ else 0

/-- What answers count for together. -/
def total (answers : List (Except Error (Reply K))) : Counters := (answers.map of).sum

/-- The calls that have been counted. -/
def calls (c : Counters) : Nat := c.cacheHits + c.computations + c.failures

/-- Whether an answer is counted: whether it is a value or a documented error. -/
def counts : Except Error (Reply K) → Bool
  | .ok _ => true
  | .error error => error.isDocumented

theorem calls_of (answer : Except Error (Reply K)) : (of answer).calls = if counts answer then 1 else 0 := by
  cases answer with
  | ok reply =>
    unfold of
    dsimp only
    split
    · rfl
    · split <;> rfl
  | error error =>
    unfold of counts
    dsimp only
    split <;> rfl

theorem staleFallbacks_of_le (answer : Except Error (Reply K)) : (of answer).staleFallbacks ≤ (of answer).failures := by
  unfold of
  split
  · split
    · exact Nat.le_refl _
    · split <;> exact Nat.le_refl _
  · split
    · exact Nat.zero_le _
    · exact Nat.le_refl _

/-- Each answer that is counted is one call. -/
theorem calls_total (answers : List (Except Error (Reply K))) : (total answers).calls = answers.countP counts := by
  induction answers with
  | nil => rfl
  | cons answer rest ih =>
    have hsum : (total (answer :: rest)).calls = (of answer).calls + (total rest).calls := by
      simp only [total, calls, List.map_cons, List.sum_cons, cacheHits_add, computations_add, failures_add]
      omega
    rw [hsum, calls_of, ih, List.countP_cons, Nat.add_comm]

/-- No fallback is counted without a failure. -/
theorem staleFallbacks_total_le (answers : List (Except Error (Reply K))) :
    (total answers).staleFallbacks ≤ (total answers).failures := by
  induction answers with
  | nil => exact Nat.le_refl _
  | cons answer rest ih =>
    have hone := staleFallbacks_of_le answer
    simp only [total, List.map_cons, List.sum_cons, staleFallbacks_add, failures_add] at ih ⊢
    omega

theorem total_append (answers others : List (Except Error (Reply K))) :
    total (answers ++ others) = total answers + total others := by
  unfold total
  rw [List.map_append, List.sum_append]

end Counters

/-! ## Conclusions -/

namespace Engine

variable {e : Engine K} {id : String} {previous : Option (Entry K)} {outcome : Except Error (Entry K)}

/-- A conclusion counts for its answer, if neither the new analytics nor those before them are stale. -/
theorem counters_conclude (hnew : ∀ entry, outcome = .ok entry → entry.analytics.stale = false) :
    (e.conclude id previous outcome).2.counters =
      e.counters + Counters.of (e.conclude id previous outcome).1 := by
  have hspec := conclude_spec e id previous outcome
  generalize e.conclude id previous outcome = result at hspec ⊢
  obtain ⟨answer, after⟩ := result
  cases hspec with
  | computed entry => simp [Counters.of, Counters.ext_iff, hnew entry rfl]
  | unknown hunknown => simp [Counters.of, Counters.ext_iff, Error.isDocumented, hunknown, count]
  | stale _ _ => simp [Counters.of, Counters.ext_iff, Analytics.asStale, count]
  | failed hupstream _ => simp [Counters.of, Counters.ext_iff, Error.isDocumented, hupstream]
  | crashed hupstream hunknown => simp [Counters.of, Error.isDocumented, hupstream, hunknown]

variable [Scalar K] {s : Sources K}

/-- A hit counts for the cached analytics that it returns. -/
theorem counters_hit (h : e.Keeps ComputedThen) {entry : Entry K} (hget : e.cache.get? id = some entry) :
    (e.count fun c => { c with cacheHits := c.cacheHits + 1 }).counters =
      e.counters + Counters.of (.ok ⟨.cached, entry.analytics⟩) := by
  simp [Counters.of, Counters.ext_iff, (h.entries id entry hget).stale_eq_false, count]

theorem counters_answer (h : e.Keeps ComputedThen) (call : Call) :
    (e.answer s call).2.counters = e.counters + Counters.of (e.answer s call).1 := by
  rcases e.answer_eq s call with heq | ⟨entry, hget, -, heq⟩
  · rw [heq, refresh_eq]
    exact counters_conclude fun entry hentry => Entry.stale_eq_false_of_compute hentry
  · rw [heq]
    exact counters_hit h hget

theorem Keeps.answer {P : EntryProp K} {allowed : Sources K → Prop} (hP : Inherited allowed P) (hs : allowed s)
    (h : e.Keeps P) (call : Call) : (e.answer s call).2.Keeps P := by
  unfold Engine.answer
  split
  · exact h.refresh hP hs call.id
  · exact h.get hP hs call.id

end Engine

/-! ## Threads -/

/-- What the answer counts for that a thread knows. -/
def Thread.counted (t : Thread K) : Counters := t.known?.elim 0 Counters.of

theorem Machine.total_known (m : Machine K) : Counters.total m.known = (m.threads.map Thread.counted).sum := by
  unfold known
  induction m.threads with
  | nil => rfl
  | cons t rest ih =>
    rw [List.map_cons, List.sum_cons, ← ih, List.filterMap_cons]
    unfold Thread.counted
    cases t.known? with
    | none => exact (zero_add _).symm
    | some answer => rfl

variable [Scalar K]

/-- A step of a thread adds to the counters what the answer counts for that the thread comes to know with it. -/
theorem Thread.advance_counters {e : Engine K} {s : Sources K} {t : Thread K} (h : e.Keeps Engine.ComputedThen)
    (ht : t.Carries Engine.ComputedThen e.config) :
    ∃ d, (t.advance e s).2.counters = e.counters + d ∧ (t.advance e s).1.counted = t.counted + d := by
  have hstep := t.advance_spec e s
  generalize t.advance e s = result at hstep ⊢
  obtain ⟨next, after⟩ := result
  dsimp only at hstep ⊢
  cases hstep with
  | found _ hget _ => exact ⟨_, Engine.counters_hit h hget, (zero_add _).symm⟩
  | foundInside _ hget _ => exact ⟨_, Engine.counters_hit h hget, (zero_add _).symm⟩
  | concluded =>
    exact ⟨_, Engine.counters_conclude fun entry hentry => (ht.2 entry hentry).stale_eq_false, (zero_add _).symm⟩
  | _ => exact ⟨0, (add_zero _).symm, (add_zero _).symm⟩

namespace Machine

variable {allowed : Sources K → Prop} {m : Machine K}

/-- A move adds to the counters what the answers count for that threads come to know with it. -/
theorem counters_apply (h : m.Keeps allowed Engine.ComputedThen) (move : Move K) :
    ∃ d, (m.apply move).engine.counters = m.engine.counters + d ∧
      Counters.total (m.apply move).known = Counters.total m.known + d := by
  cases move with
  | begin call =>
    refine ⟨0, (add_zero _).symm, ?_⟩
    rw [add_zero]
    show Counters.total ((m.threads ++ [Thread.begin call]).filterMap Thread.known?) = _
    rw [List.filterMap_append]
    exact congrArg Counters.total (List.append_nil _)
  | advance i =>
    cases hi : m.threads[i]? with
    | none =>
      rw [apply_advance_of_none hi]
      exact ⟨0, (add_zero _).symm, (add_zero _).symm⟩
    | some t =>
      obtain ⟨d, hcounters, hcounted⟩ :=
        Thread.advance_counters (s := m.sources) h.engine (h.threads t (List.mem_of_getElem? hi))
      refine ⟨d, ?_, ?_⟩
      · rw [apply_advance hi]
        exact hcounters
      · rw [apply_advance hi, total_known, total_known]
        have hsum := sum_map_set Thread.counted hi (t.advance m.engine m.sources).1
        rw [hcounted, ← add_assoc, add_right_comm] at hsum
        exact add_right_cancel hsum
  | _ => exact ⟨0, (add_zero _).symm, (add_zero _).symm⟩

/-- In a run the counters grow by what the answers count for that threads come to know. -/
theorem counters_run (h : m.Keeps allowed Engine.ComputedThen) {moves : List (Move K)}
    (hmoves : ∀ move ∈ moves, MoveAllowed allowed move) :
    ∃ d, (m.run moves).engine.counters = m.engine.counters + d ∧
      Counters.total (m.run moves).known = Counters.total m.known + d := by
  induction moves generalizing m with
  | nil => exact ⟨0, (add_zero _).symm, (add_zero _).symm⟩
  | cons move rest ih =>
    rw [List.forall_mem_cons] at hmoves
    obtain ⟨d, hcounters, hknown⟩ := counters_apply h move
    obtain ⟨d', hcounters', hknown'⟩ := ih (h.apply (Engine.inherited_computedThen allowed) hmoves.1) hmoves.2
    refine ⟨d + d', ?_, ?_⟩
    · rw [← add_assoc, ← hcounters]
      exact hcounters'
    · rw [← add_assoc, ← hknown]
      exact hknown'

/-- Threads that share an engine add to its counters what their answers count for. -/
theorem counters_run_start {e : Engine K} (h : e.Keeps Engine.ComputedThen) {s : Sources K} (hs : allowed s)
    {moves : List (Move K)} (hmoves : ∀ move ∈ moves, MoveAllowed allowed move) :
    ((start e s).run moves).engine.counters = e.counters + Counters.total ((start e s).run moves).known := by
  obtain ⟨d, hcounters, hknown⟩ := counters_run (m := start e s) (.of_rest hs h) hmoves
  rw [hcounters, hknown]
  exact congrArg (e.counters + ·) (zero_add d).symm

end Machine

/-! ## Events -/

namespace Engine

variable {e : Engine K} {s : Sources K}

theorem Keeps.answers {P : EntryProp K} {allowed : Sources K → Prop} (hP : Inherited allowed P) (hs : allowed s)
    (h : e.Keeps P) (calls : List Call) : (e.answers s calls).2.Keeps P := by
  induction calls generalizing e with
  | nil => exact h
  | cons call rest ih => exact ih (h.answer hP hs call)

theorem counters_answers (h : e.Keeps ComputedThen) (calls : List Call) :
    (e.answers s calls).2.counters = e.counters + Counters.total (e.answers s calls).1 := by
  induction calls generalizing e with
  | nil => exact (add_zero _).symm
  | cons call rest ih =>
    have hafter := h.answer (inherited_computedThen fun _ => True) trivial (s := s) call
    show ((e.answer s call).2.answers s rest).2.counters = e.counters +
      (Counters.of (e.answer s call).1 + Counters.total ((e.answer s call).2.answers s rest).1)
    rw [ih hafter, counters_answer h, add_assoc]

end Engine

omit [Scalar K] in
/-- What an event does to an engine apart from its calls changes neither the counters nor the configuration nor the room
of the cache, and makes no entry. -/
theorem Event.alter_frame (event : Event K) (e : Engine K) :
    (event.alter e).counters = e.counters ∧ (event.alter e).config = e.config ∧
      (event.alter e).cache.capacity = e.cache.capacity ∧
      ∀ P : Engine.EntryProp K, e.Keeps P → (event.alter e).Keeps P := by
  have hsame : e.counters = e.counters ∧ e.config = e.config ∧ e.cache.capacity = e.cache.capacity ∧
      ∀ P : Engine.EntryProp K, e.Keeps P → e.Keeps P := ⟨rfl, rfl, rfl, fun _ h => h⟩
  cases event with
  | invalidate id => exact ⟨rfl, rfl, rfl, fun _ h => h.drop id⟩
  | invalidateAll => exact ⟨rfl, rfl, rfl, fun _ h => h.invalidateAll⟩
  | close => exact ⟨rfl, rfl, rfl, fun _ h => h.of_eq rfl rfl⟩
  | request method target =>
    unfold alter
    dsimp only
    cases Route.reached? method target with
    | none => exact hsame
    | some route =>
      cases route with
      | cache id => exact ⟨rfl, rfl, rfl, fun _ h => h.drop id⟩
      | _ => exact hsame
  | _ => exact hsame

namespace Installation

variable {i : Installation K}

theorem keeps_called {P : Engine.EntryProp K} (hP : Engine.Inherited (fun _ => True) P) (h : i.engine.Keeps P)
    (event : Event K) : (i.called event).2.Keeps P := by
  cases event with
  | overlap calls =>
    have hstart : (Machine.start i.engine i.site.sources).Keeps (fun _ => True) P := .of_rest trivial h
    exact (hstart.run hP fun _ _ _ _ => trivial).engine
  | _ => exact h.answers hP trivial _

theorem keeps_step {P : Engine.EntryProp K} (hP : Engine.Inherited (fun _ => True) P) (h : i.engine.Keeps P)
    (event : Event K) : (i.step event).2.engine.Keeps P := by
  rw [engine_step]
  exact (event.alter_frame _).2.2.2 P (keeps_called hP h event)

theorem keeps_run {P : Engine.EntryProp K} (hP : Engine.Inherited (fun _ => True) P) (h : i.engine.Keeps P)
    (events : List (Event K)) : (i.run events).2.engine.Keeps P := by
  induction events generalizing i with
  | nil => exact h
  | cons event rest ih => exact ih (keeps_step hP h event)

theorem counters_called (h : i.engine.Keeps Engine.ComputedThen) (event : Event K) :
    (i.called event).2.counters = i.engine.counters + Counters.total (i.called event).1 := by
  cases event with
  | overlap calls =>
    have hmoves : ∀ move ∈ (Machine.overlapping calls : List (Move K)), Machine.MoveAllowed (fun _ => True) move :=
      fun _ _ _ _ => trivial
    exact Machine.counters_run_start h trivial hmoves
  | _ => exact Engine.counters_answers h _

/-- In a run of events the counters grow by what the answers to all calls count for. -/
theorem counters_run (h : i.engine.Keeps Engine.ComputedThen) (events : List (Event K)) :
    (i.run events).2.engine.counters = i.engine.counters + Counters.total (i.outcomes events) := by
  induction events generalizing i with
  | nil => exact (add_zero _).symm
  | cons event rest ih =>
    have hafter := keeps_step (Engine.inherited_computedThen fun _ => True) h event
    show ((i.step event).2.run rest).2.engine.counters = _
    rw [ih hafter, engine_step, (event.alter_frame _).1, counters_called h, add_assoc]
    exact congrArg (i.engine.counters + ·) (Counters.total_append _ _).symm

end Installation

/-! ## Bounds -/

namespace Engine

/-- Engines with one configuration and caches of one size. -/
structure SameRoom (e e' : Engine K) : Prop where
  capacity : e'.cache.capacity = e.cache.capacity
  config : e'.config = e.config

namespace SameRoom

variable {e e' e'' : Engine K} {s : Sources K}

omit [Scalar K] in
protected theorem refl (e : Engine K) : e.SameRoom e := ⟨rfl, rfl⟩

omit [Scalar K] in
theorem trans (h : e.SameRoom e') (h' : e'.SameRoom e'') : e.SameRoom e'' :=
  ⟨h'.capacity.trans h.capacity, h'.config.trans h.config⟩

omit [Scalar K] in
theorem conclude (e : Engine K) (id : String) (previous : Option (Entry K)) (outcome : Except Error (Entry K)) :
    e.SameRoom (e.conclude id previous outcome).2 := by
  have hspec := conclude_spec e id previous outcome
  generalize e.conclude id previous outcome = result at hspec ⊢
  obtain ⟨answer, after⟩ := result
  cases hspec <;> exact ⟨rfl, rfl⟩

theorem answer (e : Engine K) (s : Sources K) (call : Call) : e.SameRoom (e.answer s call).2 := by
  obtain ⟨hconfig, -, hcases⟩ := e.answer_cases s call
  refine ⟨?_, hconfig⟩
  rcases hcases with ⟨entry, -, -, hput⟩ | ⟨-, hsame | hdrop⟩
  · rw [hput]
    rfl
  · rw [hsame]
  · rw [hdrop]
    rfl

theorem answers (e : Engine K) (s : Sources K) (calls : List Call) : e.SameRoom (e.answers s calls).2 := by
  induction calls generalizing e with
  | nil => exact .refl e
  | cons call rest ih => exact (answer e s call).trans (ih _)

theorem advance (t : Thread K) (e : Engine K) (s : Sources K) : e.SameRoom (t.advance e s).2 := by
  have hstep := t.advance_spec e s
  generalize t.advance e s = result at hstep ⊢
  obtain ⟨next, after⟩ := result
  dsimp only at hstep ⊢
  cases hstep with
  | concluded => exact conclude e _ _ _
  | _ => exact ⟨rfl, rfl⟩

theorem run (m : Machine K) (moves : List (Move K)) : m.engine.SameRoom (m.run moves).engine := by
  induction moves generalizing m with
  | nil => exact .refl _
  | cons move rest ih =>
    refine SameRoom.trans ?_ (ih (m.apply move))
    cases move with
    | advance i =>
      cases hi : m.threads[i]? with
      | none =>
        rw [Machine.apply_advance_of_none hi]
        exact .refl _
      | some t =>
        rw [Machine.apply_advance hi]
        exact advance t _ _
    | _ => exact ⟨rfl, rfl⟩

theorem step (i : Installation K) (event : Event K) : i.engine.SameRoom (i.step event).2.engine := by
  obtain ⟨-, hconfig, hcapacity, -⟩ := event.alter_frame (i.called event).2
  rw [Installation.engine_step]
  refine SameRoom.trans ?_ ⟨hcapacity, hconfig⟩
  cases event with
  | overlap calls => exact run (Machine.start i.engine i.site.sources) _
  | _ => exact answers i.engine i.site.sources _

theorem events (i : Installation K) (events : List (Event K)) : i.engine.SameRoom (i.run events).2.engine := by
  induction events generalizing i with
  | nil => exact .refl _
  | cons event rest ih => exact (step i event).trans (ih _)

end SameRoom

/-- An engine whose counters count no fallback without a failure and whose cache has the size that it is configured to
have. -/
structure Bounded (e : Engine K) : Prop where
  fallbacks : e.counters.staleFallbacks ≤ e.counters.failures
  capacity : (e.cache.capacity : Int) = max 1 e.config.maxCachedConnections

variable {e e' : Engine K}

omit [Scalar K] in
theorem Bounded.add (h : e.Bounded) (hroom : e.SameRoom e') {answers : List (Except Error (Reply K))}
    (hcounters : e'.counters = e.counters + Counters.total answers) : e'.Bounded where
  fallbacks := by
    have hnew := Counters.staleFallbacks_total_le answers
    have hold := h.fallbacks
    rw [hcounters, Counters.staleFallbacks_add, Counters.failures_add]
    omega
  capacity := by
    rw [hroom.capacity, hroom.config]
    exact h.capacity

omit [Scalar K] in
/-- Never more connections are cached than the configuration says, or one. -/
theorem Bounded.cachedConnections_le (h : e.Bounded) (hcache : e.cache.WellFormed) :
    (e.stats.cachedConnections : Int) ≤ max 1 e.config.maxCachedConnections := by
  rw [← h.capacity]
  exact Int.ofNat_le.mpr hcache.bounded

theorem Bounded.answer (h : e.Bounded) (hkeeps : e.Keeps ComputedThen) (s : Sources K) (call : Call) :
    (e.answer s call).2.Bounded := by
  have hcounters : (e.answer s call).2.counters = e.counters + Counters.total [(e.answer s call).1] :=
    (counters_answer hkeeps call).trans (congrArg (e.counters + ·) (add_zero _).symm)
  exact h.add (.answer e s call) hcounters

theorem Reachable.bounded {allowed : Sources K → Prop} (h : e.Reachable allowed) : e.Bounded := by
  induction h with
  | create h =>
    unfold Engine.create at h
    split at h <;> cases h
    exact ⟨Nat.le_refl _, by simp [Cache.empty]⟩
  | get he _ id ih => exact ih.answer (he.keeps (inherited_computedThen allowed)) _ ⟨id, false⟩
  | refresh he _ id ih => exact ih.answer (he.keeps (inherited_computedThen allowed)) _ ⟨id, true⟩
  | invalidate _ _ ih => exact ⟨ih.fallbacks, ih.capacity⟩
  | invalidateAll _ ih => exact ⟨ih.fallbacks, ih.capacity⟩
  | close _ ih => exact ⟨ih.fallbacks, ih.capacity⟩
  | threads he hs hmoves _ ih =>
    exact ih.add (.run (Machine.start _ _) _)
      (Machine.counters_run_start (he.keeps (inherited_computedThen allowed)) hs hmoves)

/-- What it means that the counters account for answers given between one engine and another: they have grown by what
the answers count for, which is one call for each of them that is counted; no fallback is counted without a failure, and
the cache is no larger than configured. -/
structure Accounts (e : Engine K) (answers : List (Except Error (Reply K))) (e' : Engine K) : Prop where
  counters : e'.counters = e.counters + Counters.total answers
  calls : e'.counters.calls = e.counters.calls + answers.countP Counters.counts
  fallbacks : e'.counters.staleFallbacks ≤ e'.counters.failures
  cachedConnections : (e'.stats.cachedConnections : Int) ≤ max 1 e.config.maxCachedConnections

omit [Scalar K] in
theorem Bounded.accounts (h : e.Bounded) (hcache : e'.cache.WellFormed) (hroom : e.SameRoom e')
    {answers : List (Except Error (Reply K))} (hcounters : e'.counters = e.counters + Counters.total answers) :
    e.Accounts answers e' where
  counters := hcounters
  calls := by
    rw [hcounters, ← Counters.calls_total]
    simp only [Counters.calls, Counters.cacheHits_add, Counters.computations_add, Counters.failures_add]
    omega
  fallbacks := (h.add hroom hcounters).fallbacks
  cachedConnections := by
    rw [← hroom.config]
    exact (h.add hroom hcounters).cachedConnections_le hcache

end Engine

/-! ## Every call -/

/-- What a call counts for that is served in a way. -/
def Way.counters : Way → Counters
  | cached => ⟨1, 0, 0, 0⟩
  | computed => ⟨0, 1, 0, 0⟩
  | stale => ⟨0, 0, 1, 1⟩
  | raised => ⟨0, 0, 0, 1⟩

namespace Engine

variable {e : Engine K} {s : Sources K}

/-- What an answer counts for, if it is counted, is told by the way in which its call is served. -/
theorem of_eq_counters (h : e.Keeps ComputedThen) {id : String} {answer : Except Error (Reply K)} {after : Engine K}
    {w : Way} (hw : w.Describes e s id answer after) (hcounts : Counters.counts answer = true) :
    Counters.of answer = w.counters := by
  cases w with
  | cached =>
    obtain ⟨entry, hget, -, rfl, -⟩ := hw
    simp [Counters.of, (h.entries id entry hget).stale_eq_false, Way.counters]
  | computed =>
    obtain ⟨entry, hattempt, rfl, -⟩ := hw
    simp [Counters.of, Entry.stale_eq_false_of_compute hattempt, Way.counters]
  | stale =>
    obtain ⟨entry, error, -, -, -, rfl, -⟩ := hw
    simp [Counters.of, Way.counters]
  | raised =>
    obtain ⟨error, rfl⟩ := hw
    have hdocumented : error.isDocumented = true := hcounts
    simp [Counters.of, hdocumented, Way.counters]

/-- Each call is served in some way, and if its answer is counted then it adds to the counters what this way counts
for. -/
theorem exists_way_of_answer (h : e.Keeps ComputedThen) (s : Sources K) (call : Call) :
    ∃ w : Way, w.Describes e s call.id (e.answer s call).1 (e.answer s call).2 ∧
      (Counters.counts (e.answer s call).1 = true → (e.answer s call).2.counters = e.counters + w.counters) := by
  obtain ⟨w, hw⟩ : ∃ w : Way, w.Describes e s call.id (e.answer s call).1 (e.answer s call).2 := by
    rcases e.answer_eq s call with heq | ⟨entry, hget, hfresh, heq⟩
    · obtain ⟨w, -, hw⟩ : ∃ w : Way, w ≠ .cached ∧
          w.Describes e s call.id (e.refresh s call.id).1 (e.refresh s call.id).2 := describes_refresh h.wellFormed
      exact ⟨w, heq ▸ hw⟩
    · exact ⟨.cached, entry, hget, hfresh, by rw [heq], by rw [heq]⟩
  refine ⟨w, hw, fun hcounts => ?_⟩
  rw [counters_answer h, of_eq_counters h hw hcounts]

end Engine

namespace Machine

/-- A thread that comes to know a value knows a stale one just where the computation failed. -/
theorem stale_iff_of_learns {allowed : Sources K → Prop} {m : Machine K} (h : m.Reachable allowed) {t : Thread K}
    (ht : t ∈ m.threads) {reply : Reply K} (hlearns : Thread.Learns m.engine m.sources t reply) :
    reply.value.stale = true ↔ reply.origin = .stale := by
  have hkeeps := h.keeps (Engine.inherited_computedThen allowed)
  cases hlearns with
  | hit hget _ => simp [(hkeeps.engine.entries _ _ hget).stale_eq_false]
  | computed =>
    have hnew := (hkeeps.threads _ ht).2 _ rfl
    simp [hnew.stale_eq_false]
  | stale => simp [Analytics.asStale]

/-- The counters account for the answers to all calls, in every run of threads that share a reachable engine and of
events after it. A value that a thread knows is a hit, a new computation or stale by the step with which the thread has
come to know it, and a single call counts for the one way in which it is served. -/
theorem counters_account_for_calls {e : Engine K} (he : e.Reachable fun _ => True) (s : Sources K)
    (moves : List (Move K)) :
    let m := (start e s).run moves
    e.Accounts m.known m.engine ∧
    (∀ (i : Nat) t reply, m.threads[i]? = some t → t.known? = some (.ok reply) →
      (reply.value.stale = true ↔ reply.origin = .stale) ∧
      ∃ n u, (start e s).Takes moves n i u ∧ u.call = t.call ∧
        Thread.Learns ((start e s).after moves n).engine ((start e s).after moves n).sources u reply) ∧
    (∀ (s' : Sources K) (call : Call), ∃ w : Way,
      w.Describes m.engine s' call.id (m.engine.answer s' call).1 (m.engine.answer s' call).2 ∧
      (Counters.counts (m.engine.answer s' call).1 = true →
        (m.engine.answer s' call).2.counters = m.engine.counters + w.counters)) ∧
    ∀ (site : Site K) (events : List (Event K)),
      m.engine.Accounts ((Installation.mk m.engine site).outcomes events)
        ((Installation.mk m.engine site).run events).2.engine := by
  intro m
  have hmoves : ∀ move ∈ moves, MoveAllowed (fun _ => True) move := fun _ _ _ _ => trivial
  have hm : m.Reachable fun _ => True := ⟨e, s, moves, he, trivial, hmoves, rfl⟩
  have hkeeps := hm.keeps (Engine.inherited_computedThen fun _ => True)
  have hcounters : m.engine.counters = e.counters + Counters.total m.known :=
    counters_run_start (he.keeps (Engine.inherited_computedThen fun _ => True)) trivial hmoves
  have hroom : e.SameRoom m.engine := .run (start e s) moves
  refine ⟨he.bounded.accounts hm.wellFormed hroom hcounters, fun i t reply hi hknown => ?_,
    Engine.exists_way_of_answer hkeeps.engine, fun site events => ?_⟩
  · rw [show m = (start e s).after moves moves.length from (after_length _ _).symm] at hi
    obtain ⟨n, u, -, -, htakes, hlearns, hcall⟩ := exists_learns (Nat.zero_le _) rfl hi hknown
    have hstale := stale_iff_of_learns (after_reachable he s moves n) (List.mem_of_getElem? htakes.2) hlearns
    exact ⟨hstale, n, u, htakes, hcall, hlearns⟩
  · have hafter := Installation.keeps_run (i := ⟨m.engine, site⟩) (Engine.inherited_computedThen fun _ => True)
      hkeeps.engine events
    exact (he.bounded.add hroom hcounters).accounts hafter.wellFormed (.events ⟨m.engine, site⟩ events)
      (Installation.counters_run hkeeps.engine events)

/-- Of two calls that overlap one computes and the other one hits, and then an unknown connection is a failure. -/
theorem counters_of_three_calls :
    let m := (start Engine.cold .quiet).run (overlapping [⟨"orders", false⟩, ⟨"orders", false⟩])
    let site : Site Float := Site.empty ⟨63839664000000000, some 0⟩ 0 Registry.standard
    let i : Installation Float := ⟨m.engine, site⟩
    Engine.cold.Reachable (fun _ => True) ∧ Engine.cold.Accounts m.known m.engine ∧
      m.engine.counters = ⟨1, 1, 0, 0⟩ ∧
      m.engine.Accounts (i.outcomes [.get "payments"]) (i.run [.get "payments"]).2.engine ∧
      (i.run [.get "payments"]).2.engine.counters = ⟨1, 1, 0, 1⟩ := by
  intro m site i
  have hcold : Engine.cold.Reachable fun _ => True := .create Engine.create_cold
  obtain ⟨hthreads, -, -, hevents⟩ :=
    counters_account_for_calls hcold .quiet (overlapping [⟨"orders", false⟩, ⟨"orders", false⟩])
  exact ⟨hcold, hthreads, by decide +kernel, hevents site _, by decide +kernel⟩

end Machine

end Backpressure
