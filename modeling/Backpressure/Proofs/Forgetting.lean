import Backpressure.Proofs.Consistency
import Backpressure.Proofs.Failures
import Backpressure.Proofs.Serving

/-!
# Engines without memory

* `Sources.Forgetful` : surroundings whose models of the configured kind do not go on learning, `LineKind.forgetful` :
  those of lines that clear what they have learned;
* `Entry.StartsAnew` : an entry that leaves nothing to the computation after it, `compute_eq_compute_none` : that
  computation is the one from no entry at all;
* `Entry.LearnsWindow` : live models that have learned the window of the clock and nothing else;
* `Engine.refresh_forgets` : what engines that differ in their caches answer to a refresh.
-/

namespace Backpressure
open Number Time Trend

variable {K : Type} [Scalar K]

/-! ## Models that do not go on learning -/

theorem Trend.Model.learn_continues (m : Model K) (xs ys : List K) :
    (m.learn xs ys).2.online = m.online ∧ (m.learn xs ys).2.clearOnLearn = m.clearOnLearn := by
  have hrefit : ∀ m' : Model K, m'.refit.2.online = m'.online ∧ m'.refit.2.clearOnLearn = m'.clearOnLearn := by
    intro m'
    unfold refit
    split
    · exact ⟨rfl, rfl⟩
    · split <;> exact ⟨rfl, rfl⟩
  unfold learn
  split
  · exact ⟨rfl, rfl⟩
  · split
    · exact ⟨rfl, rfl⟩
    · exact hrefit _

/-- Surroundings whose models of the configured kind do not learn online, or keep no batch when the next one comes. -/
def Sources.Forgetful (config : EngineConfig K) (s : Sources K) : Prop :=
  ∀ fresh, s.registry.create config.model.kind config.model = .ok fresh →
    fresh.online = false ∨ fresh.clearOnLearn = true

omit [Scalar K] in
/-- Lines of least squares do not go on learning where the configuration says that each batch replaces the last. -/
theorem LineKind.forgetful {config : EngineConfig K} {s : Sources K} (h : LineKind s.registry config)
    (hclear : config.model.clearOnLearn = true) : s.Forgetful config := by
  intro fresh hfresh
  unfold Registry.create at hfresh
  rcases h with hkind | hkind <;> rw [hkind] at hfresh <;> cases hfresh <;> exact .inr hclear

namespace LiveModel

variable {registry : Registry K} {config : EngineConfig K} {times : List Instant} {values : List K}

theorem continues_of_learnAt {m : Model K} {origin : Instant} {live : LiveModel K}
    (h : learnAt m origin times values = .ok (some live)) : live.continues = (m.online && !m.clearOnLearn) := by
  obtain ⟨hlearn, -⟩ := learnAt_eq_some.mp h
  obtain ⟨honline, hclear⟩ := m.learn_continues (times.map (origin.millisTo ·)) values
  rw [hlearn] at honline hclear
  unfold continues
  rw [honline, hclear]

theorem continues_of_trainFresh {s : Sources K} (hs : s.Forgetful config) {live : LiveModel K}
    (h : trainFresh s.registry config times values = .ok (some live)) : live.continues = false := by
  unfold trainFresh at h
  split at h
  · cases h
  · split at h
    · cases h
    · obtain ⟨fresh, hcreate, hlearn⟩ := Except.bind_eq_ok.mp h
      rw [continues_of_learnAt hlearn]
      rcases hs fresh hcreate with honline | hclear
      · simp [honline]
      · simp [hclear]

/-- A live model that does not go on learning is not consulted. -/
theorem train_eq_train_none {series : Series K} {previous : Option (LiveModel K)}
    (h : ∀ live, previous = some live → live.continues = false) :
    train registry config series previous = train registry config series none := by
  cases previous with
  | none => rfl
  | some live =>
    unfold train
    simp only [h live rfl, Bool.false_eq_true, if_false]

theorem train_none_eq_ok {series : Series K} {live : Option (LiveModel K)} :
    train registry config series none = .ok live ↔ ∃ times, series.timestamps.mapM Timestamp.toInstant = .ok times ∧
      trainFresh registry config times series.values = .ok live := Except.bind_eq_ok

end LiveModel

/-! ## Computations -/

namespace Entry

/-- No live model of an entry goes on learning. -/
def StartsAnew (entry : Entry K) : Prop := ∀ m live, entry.models.get m = some live → live.continues = false

variable {s : Sources K} {config : EngineConfig K} {stopped : Bool} {id : String} {previous : Option (Entry K)}
  {entry : Entry K}

/-- A computation from an entry whose models do not go on learning is the one from no entry. -/
theorem compute_eq_compute_none (h : ∀ p, previous = some p → p.StartsAnew) :
    compute s config stopped id previous = compute s config stopped id none := by
  have htrain : ∀ (series : Series K) m,
      LiveModel.train s.registry config series (previous.bind fun e => e.models.get m) =
        LiveModel.train s.registry config series none := by
    intro series m
    refine LiveModel.train_eq_train_none fun live hlive => ?_
    obtain ⟨p, hp, hmodel⟩ := Option.bind_eq_some_iff.mp hlive
    exact h p hp m live hmodel
  unfold compute
  simp only [htrain]
  rfl

/-- Live models that fresh ones become on the series with which the history answers in time for the window of the clock.
-/
def LearnsWindow (s : Sources K) (config : EngineConfig K) (id : String)
    (models : PerMetric (Option (LiveModel K))) : Prop :=
  ∃ w, LooksBack s config w ∧ InTime s config id w ∧ ∀ m, ∃ series times,
    settle id m (s.history id m w).answer = .ok series ∧ series.timestamps.mapM Timestamp.toInstant = .ok times ∧
    LiveModel.trainFresh s.registry config times series.values = .ok (models.get m)

theorem learnsWindow_of_compute_none (h : compute s config stopped id none = .ok entry) :
    LearnsWindow s config id entry.models := by
  obtain ⟨c⟩ := exists_computation h
  obtain ⟨-, hin, hsettled⟩ := settled_of_askHistory c.series_eq
  refine ⟨c.window, ⟨c.now, c.start, c.now_eq, c.start_eq, c.window_eq⟩, hin, fun m => ?_⟩
  obtain ⟨times, htimes, hfresh⟩ := LiveModel.train_none_eq_ok.mp (c.train_eq m)
  exact ⟨c.series.get m, times, hsettled m, htimes, hfresh⟩

theorem LearnsWindow.startsAnew (hs : s.Forgetful config) (h : LearnsWindow s config id entry.models) :
    entry.StartsAnew := by
  obtain ⟨w, -, -, hlearns⟩ := h
  intro m live hlive
  obtain ⟨series, times, -, -, hfresh⟩ := hlearns m
  rw [hlive] at hfresh
  exact LiveModel.continues_of_trainFresh hs hfresh

end Entry

/-! ## Engines -/

namespace Engine

/-- Entries that start anew lead to entries that do. -/
theorem inherited_startsAnew (config : EngineConfig K) :
    Inherited (Sources.Forgetful config) fun own _ entry => own = config → entry.StartsAnew := by
  intro s hs own stopped id previous entry hprevious hcompute hown
  subst hown
  rw [Entry.compute_eq_compute_none fun p hp => hprevious p hp rfl] at hcompute
  exact (Entry.learnsWindow_of_compute_none hcompute).startsAnew hs

/-- A refresh makes the attempt of an engine that has computed nothing. -/
theorem attempt_eq_compute_none {config : EngineConfig K} {m : Machine K} (h : m.Reachable (Sources.Forgetful config))
    (hconfig : m.engine.config = config) (s : Sources K) (id : String) :
    m.engine.attempt s id = Entry.compute s config m.engine.stopped id none := by
  unfold attempt
  rw [Entry.compute_eq_compute_none fun p hp => (h.keeps (inherited_startsAnew config)).engine.entries id p hp hconfig,
    hconfig]

theorem refresh_config (e : Engine K) (s : Sources K) (id : String) : (e.refresh s id).2.config = e.config :=
  (e.answer_cases s ⟨id, true⟩).1

theorem refresh_stopped (e : Engine K) (s : Sources K) (id : String) : (e.refresh s id).2.stopped = e.stopped :=
  (e.answer_cases s ⟨id, true⟩).2.1

theorem refresh_of_attempt {m : Machine K} {allowed : Sources K → Prop} (h : m.Reachable allowed) {s : Sources K}
    {id : String} {entry : Entry K} (hattempt : m.engine.attempt s id = .ok entry) :
    (m.engine.refresh s id).1 = .ok ⟨.computed, entry.analytics⟩ ∧
      (m.engine.refresh s id).2.cache.get? id = some entry := by
  rw [refresh_eq]
  unfold concluded
  rw [hattempt]
  exact ⟨rfl, h.wellFormed.get?_put_self id entry⟩

/-- Of two engines whose models do not go on learning, with one configuration and whatever was computed in them before,
either both fail to refresh a connection or both return the same new analytics and cache the same entry, whose live
models have learned the window of the clock and nothing else. -/
theorem refresh_forgets {config : EngineConfig K} {m m' : Machine K} (h : m.Reachable (Sources.Forgetful config))
    (h' : m'.Reachable (Sources.Forgetful config)) (hconfig : m.engine.config = config)
    (hconfig' : m'.engine.config = config) (hstopped : m.engine.stopped = m'.engine.stopped) (s : Sources K)
    (id : String) :
    (Fails (m.engine.refresh s id).1 ↔ Fails (m'.engine.refresh s id).1) ∧
    (¬ Fails (m.engine.refresh s id).1 → ∃ entry,
      (m.engine.refresh s id).1 = .ok ⟨.computed, entry.analytics⟩ ∧
      (m'.engine.refresh s id).1 = .ok ⟨.computed, entry.analytics⟩ ∧
      (m.engine.refresh s id).2.cache.get? id = some entry ∧
      (m'.engine.refresh s id).2.cache.get? id = some entry ∧
      Entry.LearnsWindow s config id entry.models) := by
  have hattempt : m.engine.attempt s id = Entry.compute s config m'.engine.stopped id none := by
    rw [attempt_eq_compute_none h hconfig, hstopped]
  have hattempt' : m'.engine.attempt s id = Entry.compute s config m'.engine.stopped id none :=
    attempt_eq_compute_none h' hconfig' s id
  refine ⟨?_, fun hsucceeds => ?_⟩
  · rw [fails_refresh_iff, fails_refresh_iff, hattempt, hattempt']
  · rw [fails_refresh_iff, hattempt] at hsucceeds
    cases hcompute : Entry.compute s config m'.engine.stopped id none with
    | error error => exact absurd ⟨error, hcompute⟩ hsucceeds
    | ok entry =>
      obtain ⟨hreply, hcached⟩ := refresh_of_attempt h (hattempt.trans hcompute)
      obtain ⟨hreply', hcached'⟩ := refresh_of_attempt h' (hattempt'.trans hcompute)
      exact ⟨entry, hreply, hreply', hcached, hcached', Entry.learnsWindow_of_compute_none hcompute⟩

end Engine

/-- A configuration in which each batch replaces what a model has learned before it. -/
def EngineConfig.clearing : EngineConfig Float :=
  { EngineConfig.standard with model := { ModelConfig.standard with clearOnLearn := true } }

/-- An engine that has learned that a queue falls, and one that has learned nothing, find the same rise. -/
theorem Engine.clearing_engine_forgets :
    let allowed := Sources.Forgetful EngineConfig.clearing
    let falling : Sources Float := { Sources.growing with history := fun id metric _ => .finished (.ok ⟨id, metric,
      [⟨63839663000000000, some 0⟩, ⟨63839663060000000, some 0⟩], [Arithmetic.ofInt 40, Arithmetic.ofInt 30]⟩) }
    let e : Engine Float := { cold with config := EngineConfig.clearing }
    let m : Machine Float := ⟨e, .growing, []⟩
    let m' : Machine Float := ⟨(e.refresh falling "orders").2, .growing, []⟩
    m.Reachable allowed ∧ m'.Reachable allowed ∧ m.engine.config = EngineConfig.clearing ∧
      m'.engine.config = EngineConfig.clearing ∧ m.engine.stopped = m'.engine.stopped ∧
      ¬ Fails (m.engine.refresh .growing "orders").1 ∧ (m'.engine.cache.get? "orders").isSome = true ∧
      ∃ entry : Entry Float, (m.engine.refresh .growing "orders").1 = .ok ⟨.computed, entry.analytics⟩ ∧
        (m'.engine.refresh .growing "orders").1 = .ok ⟨.computed, entry.analytics⟩ ∧
        Entry.LearnsWindow .growing EngineConfig.clearing "orders" entry.models := by
  intro allowed falling e m m'
  have hkind : LineKind (Registry.standard : Registry Float) EngineConfig.clearing := .inl rfl
  have hgrowing : allowed .growing := hkind.forgetful rfl
  have hfalling : allowed falling := hkind.forgetful rfl
  have hcreate : create Registry.standard EngineConfig.clearing = .ok e := rfl
  have hm : m.Reachable allowed := .of_rest (.create hcreate) hgrowing
  have hm' : m'.Reachable allowed := .of_rest (.refresh (.create hcreate) hfalling "orders") hgrowing
  have hconfig : m'.engine.config = EngineConfig.clearing := by
    dsimp only [m']
    rw [refresh_config]
  have hstopped : m.engine.stopped = m'.engine.stopped := by
    dsimp only [m, m']
    rw [refresh_stopped]
  have hsucceeds : ¬ Fails (m.engine.refresh .growing "orders").1 := by decide +kernel
  obtain ⟨entry, hreply, hreply', -, -, hlearns⟩ :=
    (refresh_forgets hm hm' rfl hconfig hstopped .growing "orders").2 hsucceeds
  exact ⟨hm, hm', rfl, hconfig, hstopped, hsucceeds, by decide +kernel, entry, hreply, hreply', hlearns⟩

end Backpressure
