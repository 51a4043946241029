import Backpressure.Engine.Recompute
import Backpressure.Proofs.Outcome

/-!
# What a successful computation has done

* `Entry.CannotWait`, `Late`, `InTime` : whether a computation cannot wait for its fetches, whether one of them is late,
  and whether neither is so;
* `Entry.askThresholds_eq_ok`, `settle_eq_ok`, `settled_of_askHistory` : where the limits and the series of a
  computation come from;
* `Entry.Computation` : every intermediate result of a computation that ends with an entry;
* `Entry.exists_computation` : a computation that succeeds has them all, `Computation.compute_eq` : one that trains the
  same models from another entry ends alike.
-/

namespace Backpressure
open Number Time Trend

/-- The limit of a metric. -/
def Thresholds.get (t : Thresholds) : Metric → Option Limit
  | .queuedBytes => t.bytes
  | .queuedCount => t.count

/-- What has arrived in time is the answer of the fetch. -/
theorem Fetch.within?_eq {K : Type} [Scalar K] {timeout : K} {fetch : Fetch K} (h : ¬ fetch.within? timeout = none) :
    fetch.within? timeout = some fetch.answer := by
  cases fetch with
  | finished answer => rfl
  | running seconds answer => exact if_pos (Decidable.byContradiction fun hlate => h (if_neg hlate))

namespace Entry

variable {K : Type}

section

variable {s : Sources K} {id : String} {m : Metric} {answer : Except Error (Series K)}

theorem askThresholds_eq_ok {limits : Thresholds} :
    askThresholds s id = .ok limits ↔ s.thresholds id = .ok limits := by
  unfold askThresholds
  cases s.thresholds id with
  | ok found => exact Iff.rfl
  | error e => cases e <;> simp

/-- The series of a metric is what is answered, or empty where there is no history. -/
theorem settle_eq_ok {series : Series K} (h : settle id m answer = .ok series) :
    answer = .ok series ∨ ∃ note, answer = .error (.noHistory note) ∧ series = Series.empty id m := by
  unfold settle at h
  split at h
  · exact .inl h
  · exact .inr ⟨_, rfl, (Except.ok.inj h).symm⟩
  · cases h
  · cases h

end

variable [Scalar K]

/-- Whether the clock gives a computation this window to ask the history for. -/
def LooksBack (s : Sources K) (config : EngineConfig K) (w : Lookback) : Prop :=
  ∃ now start, s.clock.toInstant = .ok now ∧ now.earlier config.lookbackMinutes = .ok start ∧
    Lookback.of start.toTimestamp config.lookbackPoints = .ok w

/-! ## Waiting for the history -/

section

variable {s : Sources K} {config : EngineConfig K} {stopped : Bool} {id : String} {w : Lookback} {m : Metric}

/-- Whether there is something to wait for and the timeout is too long to wait. -/
def CannotWait (s : Sources K) (config : EngineConfig K) (id : String) (w : Lookback) : Prop :=
  cannotWait config.fetchTimeoutSeconds = true ∧ ∃ m, (s.history id m w).isFinished = false

/-- Whether the fetch of a metric is not answered in time. -/
def Late (s : Sources K) (config : EngineConfig K) (id : String) (w : Lookback) (m : Metric) : Prop :=
  (s.history id m w).within? config.fetchTimeoutSeconds = none

/-- Whether both fetches are answered in time. -/
structure InTime (s : Sources K) (config : EngineConfig K) (id : String) (w : Lookback) : Prop where
  waits : ¬ CannotWait s config id w
  arrives : ∀ m, ¬ Late s config id w m

theorem inTime_of_finished (h : ∀ m, (s.history id m w).isFinished = true) : InTime s config id w where
  waits := by
    rintro ⟨-, m, hm⟩
    rw [h m] at hm
    cases hm
  arrives m hlate := by
    have hm := h m
    unfold Late at hlate
    cases hfetch : s.history id m w with
    | finished answer =>
      rw [hfetch] at hlate
      cases hlate
    | running seconds answer =>
      rw [hfetch] at hm
      cases hm

theorem cannotWait_iff : CannotWait s config id w ↔
    (!((s.history id .queuedBytes w).isFinished && (s.history id .queuedCount w).isFinished) &&
      cannotWait config.fetchTimeoutSeconds) = true := by
  have hany : (∃ m, (s.history id m w).isFinished = false) ↔
      (s.history id .queuedBytes w).isFinished = false ∨ (s.history id .queuedCount w).isFinished = false := by
    constructor
    · rintro ⟨m, hm⟩
      cases m
      · exact .inl hm
      · exact .inr hm
    · rintro (hm | hm)
      · exact ⟨_, hm⟩
      · exact ⟨_, hm⟩
  unfold CannotWait
  rw [hany, Bool.and_eq_true, Bool.not_eq_true', Bool.and_eq_false_iff, and_comm]

theorem askHistory_of_cannotWait (h : CannotWait s config id w) :
    askHistory s config false id w = .error .clockOverflow := by
  unfold askHistory
  rw [if_neg Bool.false_ne_true]
  exact if_pos (cannotWait_iff.mp h)

theorem askHistory_of_late (hwaits : ¬ CannotWait s config id w) (h : Late s config id w m) :
    askHistory s config false id w = .error (.deadline id (Scalar.tenths config.fetchTimeoutSeconds)) := by
  unfold askHistory
  rw [if_neg Bool.false_ne_true]
  dsimp only
  rw [if_neg (mt cannotWait_iff.mpr hwaits)]
  split
  · next hbytes hcount =>
    unfold Late at h
    cases m
    · cases h.symm.trans hbytes
    · cases h.symm.trans hcount
  · rfl

/-- Where the history is in time, a computation goes by what it answers. -/
theorem askHistory_of_inTime (h : InTime s config id w) :
    askHistory s config false id w = (do
      return ⟨← settle id .queuedBytes (s.history id .queuedBytes w).answer,
        ← settle id .queuedCount (s.history id .queuedCount w).answer⟩) := by
  unfold askHistory
  rw [if_neg Bool.false_ne_true]
  dsimp only
  rw [if_neg (mt cannotWait_iff.mpr h.waits), Fetch.within?_eq (h.arrives .queuedBytes),
    Fetch.within?_eq (h.arrives .queuedCount)]

/-- Both series are what the history has answered in time, which was asked while the workers ran. -/
theorem settled_of_askHistory {series : PerMetric (Series K)} (h : askHistory s config stopped id w = .ok series) :
    stopped = false ∧ InTime s config id w ∧
      ∀ m, settle id m (s.history id m w).answer = .ok (series.get m) := by
  cases stopped with
  | true => cases h
  | false =>
    by_cases hwaits : CannotWait s config id w
    · cases h.symm.trans (askHistory_of_cannotWait hwaits)
    by_cases hlate : ∃ m, Late s config id w m
    · obtain ⟨m, hm⟩ := hlate
      cases h.symm.trans (askHistory_of_late hwaits hm)
    have hin : InTime s config id w := ⟨hwaits, fun m hm => hlate ⟨m, hm⟩⟩
    rw [askHistory_of_inTime hin] at h
    obtain ⟨bytes, hbytes, hboth⟩ := Except.bind_eq_ok.mp h
    obtain ⟨count, hcount, hseries⟩ := Except.bind_eq_ok.mp hboth
    cases hseries
    refine ⟨rfl, hin, fun m => ?_⟩
    cases m
    · exact hbytes
    · exact hcount

end

/-- The intermediate results of a computation that ends with an entry. -/
structure Computation (s : Sources K) (config : EngineConfig K) (stopped : Bool) (id : String)
    (previous : Option (Entry K)) (entry : Entry K) where
  limits : Thresholds
  now : Instant
  start : Instant
  window : Lookback
  series : PerMetric (Series K)
  target : Instant
  forecasts : PerMetric (Forecast K)
  scores : PerMetric (Option (ScoreTable K))
  limits_eq : askThresholds s id = .ok limits
  now_eq : s.clock.toInstant = .ok now
  start_eq : now.earlier config.lookbackMinutes = .ok start
  window_eq : Lookback.of start.toTimestamp config.lookbackPoints = .ok window
  series_eq : askHistory s config stopped id window = .ok series
  train_eq : ∀ m, LiveModel.train s.registry config (series.get m) (previous.bind fun e => e.models.get m) =
    .ok (entry.models.get m)
  target_eq : now.later config.horizonMinutes = .ok target
  forecast_eq : ∀ m, LiveModel.forecast (entry.models.get m) (limits.get m) now target = .ok (forecasts.get m)
  scores_eq : ∀ m, scoresOf (entry.models.get m) = .ok (scores.get m)
  monotonic_eq : entry.computedMonotonic = s.monotonic
  analytics_eq : entry.analytics =
    { connection := id
      computedAt := now.toTimestamp
      eta := ⟨forecasts.bytes.eta, forecasts.count.eta⟩
      next := ⟨forecasts.bytes.next, forecasts.count.next⟩
      nextAt := target.toTimestamp
      limit := ⟨limits.bytes, limits.count⟩
      percentage := ⟨forecasts.bytes.percentage, forecasts.count.percentage⟩
      scores := [(Metric.queuedBytes.name, scores.bytes), (Metric.queuedCount.name, scores.count)]
      stale := false }

variable {s : Sources K} {config : EngineConfig K} {stopped : Bool} {id : String} {previous : Option (Entry K)}
  {entry : Entry K}

theorem exists_computation (h : compute s config stopped id previous = .ok entry) :
    Nonempty (Computation s config stopped id previous entry) := by
  unfold compute at h
  simp only [Except.bind_eq_ok, Except.pure_eq_ok] at h
  obtain ⟨limits, hlimits, now, hnow, start, hstart, window, hwindow, series, hseries, bytes, hbytes, count, hcount,
    target, htarget, bytesForecast, hbytesForecast, countForecast, hcountForecast, bytesScores, hbytesScores,
    countScores, hcountScores, rfl⟩ := h
  exact ⟨{
    limits, now, start, window, series, target
    forecasts := ⟨bytesForecast, countForecast⟩
    scores := ⟨bytesScores, countScores⟩
    limits_eq := hlimits
    now_eq := hnow
    start_eq := hstart
    window_eq := hwindow
    series_eq := hseries
    train_eq := fun m => by cases m <;> assumption
    target_eq := htarget
    forecast_eq := fun m => by cases m <;> assumption
    scores_eq := fun m => by cases m <;> assumption
    monotonic_eq := rfl
    analytics_eq := rfl }⟩

/-- A computation from another entry ends with the same one if it trains the same models. -/
theorem Computation.compute_eq (c : Computation s config stopped id previous entry) {other : Option (Entry K)}
    (htrain : ∀ m, LiveModel.train s.registry config (c.series.get m) (other.bind fun e => e.models.get m) =
      .ok (entry.models.get m)) : compute s config stopped id other = .ok entry := by
  unfold compute
  simp only [Except.bind_eq_ok, Except.pure_eq_ok]
  refine ⟨c.limits, c.limits_eq, c.now, c.now_eq, c.start, c.start_eq, c.window, c.window_eq, c.series, c.series_eq,
    _, htrain .queuedBytes, _, htrain .queuedCount, c.target, c.target_eq, _, c.forecast_eq .queuedBytes,
    _, c.forecast_eq .queuedCount, _, c.scores_eq .queuedBytes, _, c.scores_eq .queuedCount, ?_⟩
  obtain ⟨analytics, computedMonotonic, models⟩ := entry
  rw [Entry.mk.injEq]
  exact ⟨c.analytics_eq.symm, c.monotonic_eq.symm, rfl⟩

/-- New analytics are not stale. -/
theorem stale_eq_false_of_compute (h : compute s config stopped id previous = .ok entry) :
    entry.analytics.stale = false := by
  obtain ⟨c⟩ := exists_computation h
  rw [c.analytics_eq]

theorem computedMonotonic_of_compute (h : compute s config stopped id previous = .ok entry) :
    entry.computedMonotonic = s.monotonic := by
  obtain ⟨c⟩ := exists_computation h
  exact c.monotonic_eq

end Entry

end Backpressure
