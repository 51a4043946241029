import Mathlib.Data.List.TFAE
import Backpressure.Proofs.Learning
import Backpressure.Proofs.Reachable

/-!
# What a cached entry says about its models

* `LiveModel.Route` : the ways by which a live model gets into an entry, `route_of_train` : there is no other;
* `LiveModel.Fitted` : a live model with a fit of all that it retains, which is as much as a model needs,
  `Route.fitted`, `Route.origin_le_last` : what each of the ways keeps;
* `Entry.Agrees` : an entry shows of a metric what its live model for the metric gives, or nothing if it has none;
* `Entry.Consistent` : the same for both metrics, with the limits and the times of the computation,
  `Machine.entries_are_consistent` : all entries are so, also while calls are in progress.
-/

namespace Backpressure
open Number Time Trend

variable {K : Type} [Scalar K]

namespace Trend.Model

theorem observations_of_fitOf {e : Estimator K} {points : List (K × K)} {f : Fit K}
    (h : fitOf e points = .ok (some f)) : f.observations = points.length := by
  unfold fitOf at h
  split at h
  · cases h
  · obtain ⟨line, -, hf⟩ := Except.map_eq_ok.mp h
    cases hf
    rfl

/-- After a batch a model retains the batch, and what it retained before unless it clears that, and fits all of it. -/
theorem retained_of_learn {m m' : Model K} {xs ys : List K} (h : m.estimator ≠ .inert)
    (hlearn : m.learn xs ys = (.ok (), m')) : m'.estimator = m.estimator ∧
      m'.size = (if m.clearOnLearn then 0 else m.size) + xs.length ∧
      ∀ f, m'.fit = some f → f.observations = m'.size := by
  rw [learn_of_ne_inert h] at hlearn
  split at hlearn
  · cases hlearn
  · next hnone =>
    obtain ⟨fit, hfit, rfl⟩ := refit_eq_ok.mp hlearn
    obtain ⟨-, hlength, -⟩ := refusal?_eq_none.mp hnone
    refine ⟨rfl, ?_, ?_⟩
    · unfold size retain
      split <;> simp [hlength]
    · rintro f rfl
      exact observations_of_fitOf hfit

end Trend.Model

/-! ## Ways into an entry -/

namespace LiveModel

variable {registry : Registry K} {config : EngineConfig K} {series : Series K} {times : List Instant}
  {values : List K} {previous : Option (LiveModel K)} {s : LiveModel K}

/-- How the live model `s` gets into an entry, from a series and the entry before. -/
inductive Route (registry : Registry K) (config : EngineConfig K) (times : List Instant) (values : List K)
    (previous : Option (LiveModel K)) (s : LiveModel K) : Prop
  /-- It is the one from before, since the series has nothing newer. -/
  | kept (hprevious : previous = some s)
  /-- It is a copy of the one from before that has learned newer points. -/
  | extended {p : LiveModel K} (hprevious : previous = some p) (hcontinues : p.continues = true)
      {newer : List (Instant × K)} (hnewer : ∀ q ∈ newer, p.last.micros < q.1.micros)
      (hlearn : learnAt p.model p.origin (newer.map Prod.fst) (newer.map Prod.snd) = .ok (some s))
  /-- It is a new one that has learned the whole series. -/
  | trained {fresh : Model K} {origin : Instant} (hfirst : times.head? = some origin)
      (henough : max 2 config.minPoints ≤ (times.length : Int))
      (hfresh : registry.create config.model.kind config.model = .ok fresh)
      (hlearn : learnAt fresh origin times values = .ok (some s))

theorem route_of_trainFresh (h : trainFresh registry config times values = .ok (some s)) :
    Route registry config times values previous s := by
  unfold trainFresh at h
  split at h
  · cases h
  · split at h
    · cases h
    · next hmany =>
      obtain ⟨fresh, hfresh, hlearn⟩ := Except.bind_eq_ok.mp h
      exact .trained rfl (Int.not_lt.mp hmany) hfresh hlearn

theorem route_of_extend {p : LiveModel K} (hprevious : previous = some p) (hcontinues : p.continues = true)
    (h : p.extend times values = .ok (some s)) : Route registry config times values previous s := by
  unfold extend at h
  dsimp only at h
  split at h
  · cases h
    exact .kept hprevious
  · exact .extended hprevious hcontinues (fun q hq => of_decide_eq_true (List.mem_filter.mp hq).2) h

theorem route_of_train (h : train registry config series previous = .ok (some s)) :
    ∃ times, series.timestamps.mapM Timestamp.toInstant = .ok times ∧
      Route registry config times series.values previous s := by
  obtain ⟨times, htimes, htrain⟩ := Except.bind_eq_ok.mp h
  refine ⟨times, htimes, ?_⟩
  split at htrain
  · next p =>
    split at htrain
    · next hcontinues => exact route_of_extend rfl hcontinues htrain
    · exact route_of_trainFresh htrain
  · exact route_of_trainFresh htrain

/-- A live model with a fit of all that it retains, which is as much as a model needs. -/
structure Fitted (config : EngineConfig K) (s : LiveModel K) : Prop where
  learns : s.model.estimator ≠ .inert
  fit : ∃ f, s.model.fit = some f ∧ f.observations = s.model.size
  enough : max 2 config.minPoints ≤ (s.model.size : Int)

theorem fitted_of_learnAt {m : Model K} {origin : Instant} (hlearns : m.estimator ≠ .inert)
    (henough : max 2 config.minPoints ≤ (((if m.clearOnLearn then 0 else m.size) + times.length : Nat) : Int))
    (hlearn : learnAt m origin times values = .ok (some s)) : s.Fitted config := by
  obtain ⟨hm, hsome, -, -⟩ := learnAt_eq_some.mp hlearn
  obtain ⟨hestimator, hsize, hfit⟩ := Model.retained_of_learn hlearns hm
  obtain ⟨f, hf⟩ := Option.isSome_iff_exists.mp hsome
  rw [List.length_map] at hsize
  refine ⟨hestimator ▸ hlearns, ⟨f, hf, hfit f hf⟩, ?_⟩
  rw [hsize]
  exact henough

theorem Route.fitted (hkind : LineKind registry config) (hprevious : ∀ p, previous = some p → p.Fitted config)
    (h : Route registry config times values previous s) : s.Fitted config := by
  cases h with
  | kept hp => exact hprevious s hp
  | @extended p hp hcontinues newer _ hlearn =>
    obtain ⟨hlearns, -, henough⟩ := hprevious p hp
    -- A model that goes on learning keeps what it has, so it has no fewer observations than before.
    have hkeeps : p.model.clearOnLearn = false := by
      unfold continues at hcontinues
      simpa using (Bool.and_eq_true_iff.mp hcontinues).2
    refine fitted_of_learnAt hlearns ?_ hlearn
    rw [hkeeps, if_neg Bool.false_ne_true]
    omega
  | @trained fresh origin _ henough hfresh hlearn =>
    refine fitted_of_learnAt (hkind.learns hfresh) ?_ hlearn
    omega

/-- Of times in order the first is not after the last. -/
theorem head_le_getLast {first last : Instant} (horder : times.Pairwise fun t u => t.micros ≤ u.micros)
    (hfirst : times.head? = some first) (hlast : times.getLast? = some last) : first.micros ≤ last.micros := by
  cases times with
  | nil => cases hfirst
  | cons t rest =>
    cases hfirst
    rcases List.mem_cons.mp (List.mem_of_getLast? hlast) with heq | hmem
    · exact Int.le_of_eq (congrArg Instant.micros heq.symm)
    · exact List.rel_of_pairwise_cons horder hmem

/-- The origin of a live model is not after the newest time that it has learned, if the series it begins with is in
order. Newer points need not be. -/
theorem Route.origin_le_last (horder : times.Pairwise fun t u => t.micros ≤ u.micros)
    (hprevious : ∀ p, previous = some p → p.origin.micros ≤ p.last.micros)
    (h : Route registry config times values previous s) : s.origin.micros ≤ s.last.micros := by
  cases h with
  | kept hp => exact hprevious s hp
  | @extended p hp _ newer hnewer hlearn =>
    obtain ⟨-, -, horigin, hlast⟩ := learnAt_eq_some.mp hlearn
    obtain ⟨q, hq, hqlast⟩ := List.mem_map.mp (List.mem_of_getLast? hlast)
    have hbefore := hprevious p hp
    have hafter := hnewer q hq
    rw [horigin, ← hqlast]
    omega
  | trained hfirst _ _ hlearn =>
    obtain ⟨-, -, horigin, hlast⟩ := learnAt_eq_some.mp hlearn
    rw [horigin]
    exact head_le_getLast horder hfirst hlast

end LiveModel

/-! ## Forecasts -/

/-- A predicted size is not negative, and a time is predicted for a positive limit only. -/
structure Forecast.Sensible (limit : Option Limit) (f : Forecast K) : Prop where
  next : ∀ n, f.next = some n → 0 ≤ n
  eta : ∀ n positive, f.eta = .predicted n positive → 1 ≤ n ∧ ∃ l, limit = some l ∧ 0 < l.toInt

namespace LiveModel

variable {s : LiveModel K} {f : Fit K} {limit : Option Limit} {now target : Instant} {forecast : Forecast K}

theorem timeToLimit_cases {eta : Eta} (h : s.timeToLimit f limit now = .ok eta) :
    eta = .never ∨ ∃ n positive l, eta = .predicted n positive ∧ limit = some l ∧ 0 < l.toInt := by
  unfold timeToLimit at h
  cases limit with
  | none =>
    cases h
    exact .inl rfl
  | some l =>
    dsimp only [Option.map_some] at h
    split at h
    · cases h
      exact .inl rfl
    · next hrising =>
      have hpositive : 0 < l.toInt := by
        by_contra hnot
        exact hrising (by simp [Int.not_lt.mp hnot])
      obtain ⟨height, -, hcrossing⟩ := Except.bind_eq_ok.mp h
      split at hcrossing
      · cases hcrossing
        exact .inl rfl
      · split at hcrossing
        · obtain ⟨n, -, rfl⟩ := Except.map_eq_ok.mp hcrossing
          exact .inr ⟨_, _, l, rfl, rfl, hpositive⟩
        · cases hcrossing
          exact .inl rfl

theorem forecast_of_none (h : LiveModel.forecast (none : Option (LiveModel K)) limit now target = .ok forecast) :
    forecast = ⟨.insufficientData, none, none⟩ := (Except.ok.inj h).symm

theorem forecast_of_fit (hfit : s.model.fit = some f)
    (h : LiveModel.forecast (some s) limit now target = .ok forecast) :
    forecast.eta ≠ .insufficientData ∧ forecast.Sensible limit := by
  unfold LiveModel.forecast at h
  simp only [hfit] at h
  obtain ⟨eta, heta, hforecast⟩ := Except.bind_eq_ok.mp h
  have hshown : forecast.eta = eta ∧ ∀ n, forecast.next = some n → 0 ≤ n := by
    dsimp only at hforecast
    split at hforecast <;> cases hforecast
    · exact ⟨rfl, fun n hn => Option.some.inj hn ▸ Int.le_max_left _ _⟩
    · exact ⟨rfl, nofun⟩
  obtain ⟨rfl, hnext⟩ := hshown
  rcases timeToLimit_cases heta with hnever | ⟨n, positive, l, hpredicted, hlimit, hl⟩
  · rw [hnever]
    exact ⟨nofun, hnext, fun n positive hn => by rw [hnever] at hn; cases hn⟩
  · rw [hpredicted]
    exact ⟨nofun, hnext, fun _ positive _ => ⟨positive, l, hlimit, hl⟩⟩

end LiveModel

/-! ## Series in order -/

/-- A series whose times do not decrease. -/
def Series.Ascending (s : Series K) : Prop := s.timestamps.Pairwise fun t u => t.utcMicros ≤ u.utcMicros

/-- Surroundings whose history answers with series in order. -/
def Sources.Ascending (s : Sources K) : Prop :=
  ∀ id m w series, (s.history id m w).answer = .ok series → series.Ascending

omit [Scalar K] in
theorem Series.Ascending.instants {s : Series K} (h : s.Ascending) {times : List Instant}
    (htimes : s.timestamps.mapM Timestamp.toInstant = .ok times) : times.Pairwise fun t u => t.micros ≤ u.micros := by
  obtain ⟨-, rfl⟩ := (mapM_eq_ok_iff (fun t u => Timestamp.toInstant_eq_ok) _ _).mp htimes
  exact List.pairwise_map.mpr h

namespace Entry

variable {s : Sources K} {config : EngineConfig K} {stopped : Bool} {id : String} {previous : Option (Entry K)}
  {entry : Entry K} {m : Metric}

theorem ascending_of_askHistory (hs : s.Ascending) {w : Lookback} {series : PerMetric (Series K)}
    (h : askHistory s config stopped id w = .ok series) (m : Metric) : (series.get m).Ascending := by
  obtain ⟨-, -, hsettle⟩ := settled_of_askHistory h
  rcases settle_eq_ok (hsettle m) with hanswer | ⟨_, -, hempty⟩
  · exact hs id m w (series.get m) hanswer
  · rw [hempty]
    exact List.Pairwise.nil

/-! ## Entries -/

/-- What an entry shows of a metric is what its live model for the metric gives, or nothing if it has none. -/
structure Agrees (config : EngineConfig K) (entry : Entry K) (m : Metric) : Prop where
  equivalent : List.TFAE [(entry.models.get m).isSome = true, entry.analytics.eta.get m ≠ .insufficientData,
    entry.analytics.scoresOf m.name ≠ none]
  fitted : ∀ live, entry.models.get m = some live → live.Fitted config ∧ ∃ f scores, live.model.fit = some f ∧
    Scores.ofFit f = .ok scores ∧ entry.analytics.scores.lookup m.name = some (some scores.toTable)
  absent : entry.models.get m = none → entry.analytics.next.get m = none ∧
    entry.analytics.percentage.get m = none ∧ entry.analytics.scores.lookup m.name = some none
  next : ∀ n, entry.analytics.next.get m = some n → 0 ≤ n
  eta : ∀ n positive, entry.analytics.eta.get m = .predicted n positive →
    1 ≤ n ∧ ∃ limit, entry.analytics.limit.get m = some limit ∧ 0 < limit.toInt

/-- An entry whose analytics agree with its models and with the computation, in allowed surroundings, that it is of. -/
structure Consistent (allowed : Sources K → Prop) (config : EngineConfig K) (id : String) (entry : Entry K) :
    Prop where
  agrees : ∀ m, entry.Agrees config m
  origin_le_last : (∀ s, allowed s → s.Ascending) → ∀ m live, entry.models.get m = some live →
    live.origin.micros ≤ live.last.micros
  computed : ∃ s stopped previous, allowed s ∧ s.monotonic = entry.computedMonotonic ∧
    compute s config stopped id previous = .ok entry
  limits : ∀ s stopped previous, compute s config stopped id previous = .ok entry →
    ∃ limits, s.thresholds id = .ok limits ∧ ∀ m, entry.analytics.limit.get m = limits.get m
  horizon : entry.analytics.nextAt.utcMicros - entry.analytics.computedAt.utcMicros =
    config.horizonMinutes * microsPerMinute

namespace Computation

theorem forecast_get (c : Computation s config stopped id previous entry) (m : Metric) :
    ⟨entry.analytics.eta.get m, entry.analytics.next.get m, entry.analytics.percentage.get m⟩ = c.forecasts.get m := by
  rw [c.analytics_eq]
  cases m <;> rfl

theorem limit_get (c : Computation s config stopped id previous entry) (m : Metric) :
    entry.analytics.limit.get m = c.limits.get m := by
  rw [c.analytics_eq]
  cases m <;> rfl

theorem lookup_name (c : Computation s config stopped id previous entry) (m : Metric) :
    entry.analytics.scores.lookup m.name = some (c.scores.get m) := by
  rw [c.analytics_eq]
  cases m <;> rfl

/-- A metric without a live model shows nothing. -/
theorem agrees_of_none (c : Computation s config stopped id previous entry) (h : entry.models.get m = none) :
    entry.Agrees config m := by
  have hforecast := c.forecast_eq m
  have hscores := c.scores_eq m
  rw [h] at hforecast hscores
  obtain ⟨heta, hnext, hpercentage⟩ := Forecast.mk.inj ((c.forecast_get m).trans (LiveModel.forecast_of_none hforecast))
  have hlookup : entry.analytics.scores.lookup m.name = some none := by rw [c.lookup_name, ← Except.ok.inj hscores]
  refine ⟨List.tfae_of_forall False _ ?_, ?_, fun _ => ⟨hnext, hpercentage, hlookup⟩, ?_, ?_⟩
  · simp [h, heta, Analytics.scoresOf, hlookup]
  · intro live hlive
    rw [h] at hlive
    cases hlive
  · intro n hn
    rw [hnext] at hn
    cases hn
  · intro n positive hn
    rw [heta] at hn
    cases hn

/-- A metric with a fitted live model shows what the fit gives. -/
theorem agrees_of_fitted (c : Computation s config stopped id previous entry) {live : LiveModel K}
    (h : entry.models.get m = some live) (hfitted : live.Fitted config) : entry.Agrees config m := by
  obtain ⟨f, hf, -⟩ := hfitted.fit
  have hforecast := c.forecast_eq m
  have hscores := c.scores_eq m
  rw [h] at hforecast hscores
  obtain ⟨heta, hsensible⟩ := LiveModel.forecast_of_fit hf hforecast
  rw [← c.forecast_get, ← c.limit_get] at hsensible
  rw [← c.forecast_get] at heta
  dsimp only at heta
  unfold scoresOf at hscores
  rw [Option.bind_some, hf] at hscores
  obtain ⟨scores, hofFit, htable⟩ := Except.map_eq_ok.mp hscores
  have hlookup : entry.analytics.scores.lookup m.name = some (some scores.toTable) := by rw [c.lookup_name, htable]
  refine ⟨List.tfae_of_forall True _ ?_, ?_, ?_, ?_, ?_⟩
  · simp [h, heta, Analytics.scoresOf, hlookup]
  · intro other hother
    cases h.symm.trans hother
    exact ⟨hfitted, f, scores, hf, hofFit, hlookup⟩
  · intro hnone
    rw [h] at hnone
    cases hnone
  · exact hsensible.next
  · exact hsensible.eta

/-- Every live model of the entry has come into it by one of the routes, from the series of its metric. -/
theorem exists_route (c : Computation s config stopped id previous entry) {live : LiveModel K}
    (h : entry.models.get m = some live) : ∃ times, (c.series.get m).timestamps.mapM Timestamp.toInstant = .ok times ∧
      live.Route s.registry config times (c.series.get m).values (previous.bind fun e => e.models.get m) :=
  LiveModel.route_of_train (h ▸ c.train_eq m)

end Computation

variable {allowed : Sources K → Prop}

/-- A computation from a consistent entry, or from none, ends with a consistent one. -/
theorem consistent_of_compute (hs : allowed s) (hkind : LineKind s.registry config)
    (hprevious : ∀ p, previous = some p → p.Consistent allowed config id)
    (h : compute s config stopped id previous = .ok entry) : entry.Consistent allowed config id := by
  obtain ⟨c⟩ := exists_computation h
  have hbefore : ∀ {m : Metric} {live : LiveModel K}, (previous.bind fun e => e.models.get m) = some live →
      ∃ p : Entry K, p.Consistent allowed config id ∧ p.models.get m = some live := by
    intro m live hlive
    obtain ⟨p, hp, hmodel⟩ := Option.bind_eq_some_iff.mp hlive
    exact ⟨p, hprevious p hp, hmodel⟩
  have hfitted : ∀ m live, entry.models.get m = some live → live.Fitted config := by
    intro m live hlive
    obtain ⟨times, -, hroute⟩ := c.exists_route hlive
    refine hroute.fitted hkind fun old hold => ?_
    obtain ⟨p, hp, hmodel⟩ := hbefore hold
    exact ((hp.agrees m).fitted old hmodel).1
  refine ⟨fun m => ?_, fun hascending m live hlive => ?_, ?_, ?_, ?_⟩
  · cases hlive : entry.models.get m with
    | none => exact c.agrees_of_none hlive
    | some live => exact c.agrees_of_fitted hlive (hfitted m live hlive)
  · obtain ⟨times, htimes, hroute⟩ := c.exists_route hlive
    have horder := (ascending_of_askHistory (hascending s hs) c.series_eq m).instants htimes
    refine hroute.origin_le_last horder fun old hold => ?_
    obtain ⟨p, hp, hmodel⟩ := hbefore hold
    exact hp.origin_le_last hascending m old hmodel
  · exact ⟨s, stopped, previous, hs, c.monotonic_eq.symm, h⟩
  · intro s' stopped' previous' h'
    obtain ⟨c'⟩ := exists_computation h'
    exact ⟨c'.limits, askThresholds_eq_ok.mp c'.limits_eq, c'.limit_get⟩
  · obtain ⟨-, htarget⟩ := Instant.later_eq_ok c.target_eq
    rw [c.analytics_eq, Instant.utcMicros_toTimestamp, Instant.utcMicros_toTimestamp, htarget]
    omega

end Entry

/-- Every cached entry of an engine with models of a line kind is consistent, also while calls are in progress. -/
theorem Machine.entries_are_consistent {m : Machine K} {allowed : Sources K → Prop} (h : m.Reachable allowed)
    (hkind : ∀ s, allowed s → LineKind s.registry m.engine.config) {id : String} {entry : Entry K}
    (hget : m.engine.cache.get? id = some entry) : entry.Consistent allowed m.engine.config id := by
  -- The configuration is the engine's own, so that the kind stands as a premise in what the entries inherit.
  have hinherited : Engine.Inherited allowed fun config id entry =>
      (∀ s, allowed s → LineKind s.registry config) → entry.Consistent allowed config id :=
    fun s hs _ _ _ _ _ hprevious hcompute hkind =>
      Entry.consistent_of_compute hs (hkind s hs) (fun p hp => hprevious p hp hkind) hcompute
  exact (h.keeps hinherited).engine.entries id entry hget hkind

/-- Surroundings in which the queue of each connection grows towards a limit on its bytes. -/
def Sources.growing : Sources Float :=
  { Sources.quiet with
    thresholds := fun _ => .ok ⟨some (.amount 1000), none⟩
    history := fun id metric _ => .finished (.ok ⟨id, metric,
      [⟨63839663000000000, some 0⟩, ⟨63839663060000000, some 0⟩], [Arithmetic.ofInt 10, Arithmetic.ofInt 20]⟩) }

/-- The entry of a queue that grows: it reaches its limit on bytes after a while, and has none on objects. -/
theorem Machine.entry_of_growing_is_consistent :
    let allowed : Sources Float → Prop := (· = .growing)
    let m : Machine Float := ⟨(Engine.cold.refresh .growing "orders").2, .growing, []⟩
    m.Reachable allowed ∧ (∀ s, allowed s → LineKind s.registry m.engine.config) ∧ (∀ s, allowed s → s.Ascending) ∧
      ∃ entry, m.engine.cache.get? "orders" = some entry ∧ entry.Consistent allowed m.engine.config "orders" ∧
        entry.analytics.eta.bytes.isBounded = true ∧ entry.analytics.eta.count = .never := by
  intro allowed m
  have hnone : ∀ move ∈ ([] : List (Move Float)), MoveAllowed allowed move := fun _ h => by cases h
  have hgrowing : allowed .growing := rfl
  have hreachable : m.Reachable allowed :=
    ⟨_, _, [], .refresh (.create Engine.create_cold) hgrowing "orders", hgrowing, hnone, rfl⟩
  obtain ⟨hconfig, -⟩ := Engine.cold.answer_cases .growing ⟨"orders", true⟩
  have hkind : ∀ s, allowed s → LineKind s.registry m.engine.config := by
    rintro s rfl
    rw [show m.engine.config = EngineConfig.standard from hconfig]
    exact .inl rfl
  have hascending : ∀ s, allowed s → s.Ascending := by
    rintro s rfl id metric w series hseries
    cases hseries
    exact List.pairwise_pair.mpr (by decide)
  have hshown : ((m.engine.cache.get? "orders").map fun entry =>
      (entry.analytics.eta.bytes.isBounded, entry.analytics.eta.count)) = some (true, .never) := by decide +kernel
  obtain ⟨entry, hget, hetas⟩ := Option.map_eq_some_iff.mp hshown
  obtain ⟨hbytes, hcount⟩ := Prod.ext_iff.mp hetas
  exact ⟨hreachable, hkind, hascending, entry, hget, entries_are_consistent hreachable hkind hget, hbytes, hcount⟩

end Backpressure
