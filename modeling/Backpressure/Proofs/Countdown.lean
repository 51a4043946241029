import Mathlib.Logic.Relation
import Backpressure.Proofs.Forgetting
import Backpressure.Proofs.Rounding

/-!
# Etas that count down

* `Eta.millis_later` : two rounded etas of one time that is reached are as far apart as the times are, but for less than
  three halves of a millisecond;
* `LiveModel.CountsDown` : how two etas of a live model relate, `countsDown` : its forecasts at two instants do so;
* `LiveModel.Covers` : a live model to which nothing of a series is new, `eq_of_train` : training it leaves it as it is;
* `Entry.Reuses` : what every entry of models that accumulate is, `Entry.Renews` : a computation that has nothing new
  for a metric, `Renews.models_eq` : it keeps the live model of the metric;
* `Machine.etas_count_down` : what becomes of the eta of a cached entry in such computations one after another.
-/

namespace Backpressure
open Number Time Trend

/-! ## Rounded etas -/

/-- The eta at a later time is not more than before, and falls as the time passes but for what the two roundings add up
to: one half each, except that a time below one half is shown as one. -/
theorem Eta.millis_later {remaining passed : Rat} (hpassed : 0 ≤ passed) (hleft : passed < remaining) {n n' : Int}
    (h : (Eta.ofInt (roundEven remaining)).millis = some n)
    (h' : (Eta.ofInt (roundEven (remaining - passed))).millis = some n') :
    n' ≤ n ∧ |(n' : Rat) - (n - passed)| < 3 / 2 := by
  have hn : max 1 (roundEven remaining) = n := Option.some.inj h
  have hn' : max 1 (roundEven (remaining - passed)) = n' := Option.some.inj h'
  have hle : n' ≤ n := by
    rw [← hn, ← hn']
    exact max_le_max le_rfl (roundEven_mono (by linarith))
  obtain ⟨herror, hhalf⟩ := Eta.millis_error (hpassed.trans_lt hleft) h
  obtain ⟨herror', -⟩ := Eta.millis_error (sub_pos.mpr hleft) h'
  refine ⟨hle, ?_⟩
  rw [abs_lt] at herror herror' ⊢
  rcases le_or_gt (1 / 2) remaining with hlong | hshort
  · have herror := abs_le.mp (hhalf hlong)
    exact ⟨by linarith, by linarith⟩
  · -- Both etas are the least one.
    have hone : n ≤ 1 := by
      have hlt : (n : Rat) < (2 : Int) := by
        push_cast
        linarith
      have := Int.cast_lt.mp hlt
      omega
    obtain rfl : n = 1 := by omega
    obtain rfl : n' = 1 := by omega
    exact ⟨by linarith, by linarith⟩

/-! ## Forecasts at two instants -/

/-- The milliseconds from one instant to another. -/
def Time.Instant.millisSince (now earlier : Instant) : Rat := ((now.micros - earlier.micros : Int) : Rat) / 1000

theorem Time.Instant.millisSince_nonneg {now earlier : Instant} (h : earlier.micros ≤ now.micros) :
    0 ≤ now.millisSince earlier := by
  have hpos : (0 : Rat) ≤ ((now.micros - earlier.micros : Int) : Rat) := by exact_mod_cast Int.sub_nonneg.mpr h
  exact div_nonneg hpos (by norm_num)

namespace LiveModel

section Later

variable {s : LiveModel Rat} {f : Fit Rat} {limit : Option Limit} {l : Limit} {now later target target' : Instant}
  {found found' : Forecast Rat}

theorem remaining_later (s : LiveModel Rat) (f : Fit Rat) (size : Rat) (now later : Instant) :
    s.remaining f size later = s.remaining f size now - later.millisSince now := by
  unfold remaining Instant.millisSince
  rw [Instant.millisTo_rat, Instant.millisTo_rat]
  push_cast
  ring

/-- What is ahead of a rising line was ahead of it before. -/
theorem Ahead.earlier (h : s.Ahead f later l) (hle : now.micros ≤ later.micros) : s.Ahead f now l := by
  refine ⟨h.positive, h.proper, h.slope, (remaining_pos_iff h.rises).mp ?_⟩
  have hlater := (remaining_pos_iff h.rises).mpr h.below
  rw [remaining_later s f _ now] at hlater
  have := Instant.millisSince_nonneg hle
  linarith

theorem eta_of_forecast (hfit : s.model.fit = some f) {eta : Eta} (heta : s.timeToLimit f limit now = .ok eta)
    (h : forecast (some s) limit now target = .ok found) : found.eta = eta := by
  obtain ⟨other, hother, hsame⟩ := exists_forecast_of_timeToLimit hfit heta target
  cases hother.symm.trans h
  exact hsame

/-- What becomes of an eta of a live model for a limit: where there are too few data or never is predicted it stays so;
a prediction turns into never when the time that remained has passed, and until then it falls with the time. -/
structure CountsDown (live : Option (LiveModel Rat)) (limit : Option Limit) (now later : Instant) (eta eta' : Eta) :
    Prop where
  insufficient : eta = .insufficientData → eta' = .insufficientData
  never : eta = .never → eta' = .never
  predicted : ∀ n positive, eta = .predicted n positive → ∃ s f l,
    live = some s ∧ s.model.fit = some f ∧ limit = some l ∧ 0 < s.remaining f l.toInt now ∧
    (s.remaining f l.toInt now ≤ later.millisSince now → eta' = .never) ∧
    (later.millisSince now < s.remaining f l.toInt now → ∃ n' positive', eta' = .predicted n' positive' ∧ n' ≤ n ∧
      |(n' : Rat) - (n - later.millisSince now)| < 3 / 2)

theorem countsDown_of_ahead (hfit : s.model.fit = some f) (hahead : s.Ahead f now l) (hle : now.micros ≤ later.micros)
    (h : forecast (some s) (some l) now target = .ok found)
    (h' : forecast (some s) (some l) later target' = .ok found') :
    CountsDown (some s) (some l) now later found.eta found'.eta := by
  have heta := eta_of_forecast hfit (timeToLimit_of_ahead hahead) h
  rw [heta]
  refine ⟨nofun, nofun, fun n positive hn => ?_⟩
  have hremaining := (remaining_pos_iff hahead.rises).mpr hahead.below
  refine ⟨s, f, l, rfl, hfit, rfl, hremaining, fun hpassed => ?_, fun hleft => ?_⟩
  · refine eta_of_forecast hfit (timeToLimit_of_not_ahead ?_) h'
    rintro _ ⟨⟩ hlater
    have hpos := (remaining_pos_iff hlater.rises).mpr hlater.below
    rw [remaining_later s f _ now] at hpos
    linarith
  · have hpos : 0 < s.remaining f l.toInt later := by
      rw [remaining_later s f _ now]
      linarith
    have hlater : s.Ahead f later l :=
      ⟨hahead.positive, hahead.proper, hahead.slope, (remaining_pos_iff hahead.rises).mp hpos⟩
    have heta' := eta_of_forecast hfit (timeToLimit_of_ahead hlater) h'
    rw [remaining_later s f _ now] at heta'
    exact ⟨_, _, heta', Eta.millis_later (Instant.millisSince_nonneg hle) hleft (congrArg Eta.millis hn) rfl⟩

theorem countsDown_of_not_ahead (hfit : s.model.fit = some f) (hnever : ∀ l, limit = some l → ¬ s.Ahead f now l)
    (hle : now.micros ≤ later.micros) (h : forecast (some s) limit now target = .ok found)
    (h' : forecast (some s) limit later target' = .ok found') :
    CountsDown (some s) limit now later found.eta found'.eta := by
  rw [eta_of_forecast hfit (timeToLimit_of_not_ahead hnever) h,
    eta_of_forecast hfit (timeToLimit_of_not_ahead fun l hlimit hlater => hnever l hlimit (hlater.earlier hle)) h']
  exact ⟨nofun, fun _ => rfl, nofun⟩

theorem countsDown {live : Option (LiveModel Rat)} (hle : now.micros ≤ later.micros)
    (h : forecast live limit now target = .ok found) (h' : forecast live limit later target' = .ok found') :
    CountsDown live limit now later found.eta found'.eta := by
  cases live with
  | none =>
    cases h
    cases h'
    exact ⟨fun _ => rfl, nofun, nofun⟩
  | some s =>
    cases hfit : s.model.fit with
    | none =>
      unfold forecast at h h'
      simp only [hfit] at h h'
      cases h
      cases h'
      exact ⟨fun _ => rfl, nofun, nofun⟩
    | some f =>
      by_cases hahead : ∃ l, limit = some l ∧ s.Ahead f now l
      · obtain ⟨l, rfl, hahead⟩ := hahead
        exact countsDown_of_ahead hfit hahead hle h h'
      · exact countsDown_of_not_ahead hfit (fun l hlimit hl => hahead ⟨l, hlimit, hl⟩) hle h h'

end Later

/-! ## Nothing new to learn -/

variable {K : Type}

/-- Nothing of a series is newer than all that a live model has learned; without a live model there is no point. -/
def Covers (live : Option (LiveModel K)) (series : Series K) : Prop :=
  ∀ p ∈ series.timestamps.zip series.values, ∃ s, live = some s ∧ p.1.utcMicros ≤ s.last.micros

variable [Scalar K] {registry : Registry K} {config : EngineConfig K} {times : List Instant} {values : List K}
  {series : Series K} {live after : Option (LiveModel K)}

theorem eq_of_extend {s : LiveModel K} (hold : ∀ p ∈ times.zip values, p.1.micros ≤ s.last.micros)
    (h : s.extend times values = .ok after) : after = some s := by
  have hnone : ((times.zip values).filter fun p => s.last.micros < p.1.micros) = [] :=
    List.filter_eq_nil_iff.mpr fun p hp => by simpa using hold p hp
  unfold extend at h
  rw [hnone] at h
  exact (Except.ok.inj h).symm

/-- No model of a line kind comes of times without values. -/
theorem eq_none_of_trainFresh (hkind : LineKind registry config) (hempty : times.zip values = [])
    (h : trainFresh registry config times values = .ok after) : after = none := by
  unfold trainFresh at h
  split at h
  · exact (Except.ok.inj h).symm
  · next origin rest =>
    split at h
    · exact (Except.ok.inj h).symm
    · obtain ⟨fresh, hfresh, hlearn⟩ := Except.bind_eq_ok.mp h
      obtain rfl : values = [] := (List.zip_eq_nil_iff.mp hempty).resolve_left (List.cons_ne_nil _ _)
      unfold learnAt at hlearn
      rw [Model.learn_of_ne_inert (hkind.learns hfresh)] at hlearn
      cases hlearn

/-- Training a live model that learns online with a series that it covers leaves it as it is. -/
theorem eq_of_train (hkind : LineKind registry config) (hcontinues : ∀ s, live = some s → s.continues = true)
    (hcovers : Covers live series) (h : train registry config series live = .ok after) : after = live := by
  obtain ⟨times, htimes, h⟩ := Except.bind_eq_ok.mp h
  obtain ⟨-, rfl⟩ := (mapM_eq_ok_iff (fun t u => Timestamp.toInstant_eq_ok) _ _).mp htimes
  cases live with
  | none =>
    have hempty : series.timestamps.zip series.values = [] :=
      List.eq_nil_iff_forall_not_mem.mpr fun p hp => by
        obtain ⟨s, hs, -⟩ := hcovers p hp
        cases hs
    refine eq_none_of_trainFresh hkind ?_ h
    rw [List.zip_map_left, hempty, List.map_nil]
  | some s =>
    dsimp only at h
    rw [if_pos (hcontinues s rfl)] at h
    refine eq_of_extend (fun p hp => ?_) h
    rw [List.zip_map_left] at hp
    obtain ⟨q, hq, rfl⟩ := List.mem_map.mp hp
    obtain ⟨other, hother, hle⟩ := hcovers q hq
    cases hother
    exact hle

/-- A live model of a line kind that keeps what it has learned goes on learning. -/
theorem Route.continues {s : LiveModel K} (haccum : Accumulating registry config)
    (hprevious : ∀ p, live = some p → p.continues = true) (h : Route registry config times values live s) :
    s.continues = true := by
  cases h with
  | kept hp => exact hprevious s hp
  | extended _ hcontinues _ hlearn =>
    rw [continues_of_learnAt hlearn]
    exact hcontinues
  | trained _ _ hfresh hlearn =>
    obtain ⟨haccumulates, -⟩ := haccum _ hfresh
    rw [continues_of_learnAt hlearn, haccumulates.online, haccumulates.keeps]
    rfl

end LiveModel

/-! ## Computations one after another -/

namespace Entry

variable {K : Type} [Scalar K] {allowed : Sources K → Prop} {config : EngineConfig K} {id : String} {m : Metric}
  {entry later : Entry K}

/-- An entry that is computed from another one, while the history has nothing new for the live model of a metric. -/
def Renews (allowed : Sources K → Prop) (config : EngineConfig K) (id : String) (m : Metric) (entry later : Entry K) :
    Prop :=
  ∃ s stopped, allowed s ∧ compute s config stopped id (some entry) = .ok later ∧
    ∀ w series, LooksBack s config w → settle id m (s.history id m w).answer = .ok series →
      LiveModel.Covers (entry.models.get m) series

/-- An entry that was computed, all of whose live models go on learning. -/
structure Reuses (config : EngineConfig K) (id : String) (entry : Entry K) : Prop where
  computed : ∃ s stopped previous, compute s config stopped id previous = .ok entry
  continues : ∀ m s, entry.models.get m = some s → s.continues = true

theorem reuses_of_compute {s : Sources K} {stopped : Bool} {previous : Option (Entry K)}
    (haccum : Accumulating s.registry config) (hprevious : ∀ p, previous = some p → p.Reuses config id)
    (h : compute s config stopped id previous = .ok entry) : entry.Reuses config id := by
  refine ⟨⟨s, stopped, previous, h⟩, fun m live hlive => ?_⟩
  obtain ⟨c⟩ := exists_computation h
  obtain ⟨times, -, hroute⟩ := c.exists_route hlive
  refine hroute.continues haccum fun before hbefore => ?_
  obtain ⟨p, hp, hmodel⟩ := Option.bind_eq_some_iff.mp hbefore
  exact (hprevious p hp).continues m before hmodel

/-- Where there is nothing new for a metric, its live model stays. -/
theorem Renews.models_eq (hkind : ∀ s, allowed s → LineKind s.registry config)
    (hcontinues : ∀ s, entry.models.get m = some s → s.continues = true) (h : Renews allowed config id m entry later) :
    later.models.get m = entry.models.get m := by
  obtain ⟨s, stopped, hs, hcompute, hcovers⟩ := h
  obtain ⟨c⟩ := exists_computation hcompute
  obtain ⟨-, -, hsettled⟩ := settled_of_askHistory c.series_eq
  have hwindow : LooksBack s config c.window := ⟨c.now, c.start, c.now_eq, c.start_eq, c.window_eq⟩
  exact LiveModel.eq_of_train (hkind s hs) hcontinues (hcovers _ _ hwindow (hsettled m)) (c.train_eq m)

theorem models_eq_of_renewals (hkind : ∀ s, allowed s → LineKind s.registry config) (hentry : entry.Reuses config id)
    (h : Relation.TransGen (Renews allowed config id m) entry later) :
    later.models.get m = entry.models.get m ∧
      ∃ s stopped previous, compute s config stopped id previous = .ok later := by
  induction h with
  | single hstep =>
    have hmodels := hstep.models_eq hkind (hentry.continues m)
    obtain ⟨s, stopped, -, hcompute, -⟩ := hstep
    exact ⟨hmodels, s, stopped, _, hcompute⟩
  | tail _ hstep ih =>
    have hmodels := hstep.models_eq hkind (ih.1 ▸ hentry.continues m)
    obtain ⟨s, stopped, -, hcompute, -⟩ := hstep
    exact ⟨hmodels.trans ih.1, s, stopped, _, hcompute⟩

/-- The scores of a metric are those of its live model. -/
theorem scoresOf_eq {s s' : Sources K} {stopped stopped' : Bool} {previous previous' : Option (Entry K)}
    (h : compute s config stopped id previous = .ok entry) (h' : compute s' config stopped' id previous' = .ok later)
    (hmodels : later.models.get m = entry.models.get m) :
    later.analytics.scoresOf m.name = entry.analytics.scoresOf m.name := by
  obtain ⟨c⟩ := exists_computation h
  obtain ⟨c'⟩ := exists_computation h'
  have hscores := c'.scores_eq m
  rw [hmodels, c.scores_eq m] at hscores
  unfold Analytics.scoresOf
  rw [c.lookup_name, c'.lookup_name, Except.ok.inj hscores]

/-- The eta of an entry is forecast by its live model for its limit, at the time it was computed. -/
theorem exists_forecast_of_compute {s : Sources K} {stopped : Bool} {previous : Option (Entry K)}
    (h : compute s config stopped id previous = .ok entry) (m : Metric) : ∃ target found,
      LiveModel.forecast (entry.models.get m) (entry.analytics.limit.get m) ⟨entry.analytics.computedAt.utcMicros⟩
        target = .ok found ∧ found.eta = entry.analytics.eta.get m := by
  obtain ⟨c⟩ := exists_computation h
  refine ⟨c.target, c.forecasts.get m, ?_, congrArg Forecast.eta (c.forecast_get m).symm⟩
  rw [c.limit_get, c.analytics_eq, Instant.utcMicros_toTimestamp]
  exact c.forecast_eq m

end Entry

/-- The entries of an engine whose models accumulate. -/
theorem Engine.inherited_reuses {K : Type} [Scalar K] (allowed : Sources K → Prop) :
    Inherited allowed fun config id entry => (∀ s, allowed s → LineKind s.registry config) →
      config.model.clearOnLearn = false → entry.Reuses config id := by
  intro s hs config stopped id previous entry hprevious hcompute hkind hclear
  exact Entry.reuses_of_compute ((hkind s hs).accumulating hclear) (fun p hp => hprevious p hp hkind hclear) hcompute

/-- The entry of a connection counts down while it is computed again and again without anything new for a metric: the
live model and the scores of the metric stay as they are, and where its limit is the same and the clock is not set back,
its eta falls with the time. -/
theorem Machine.etas_count_down {allowed : Sources Rat → Prop} {m : Machine Rat} (h : m.Reachable allowed)
    (hkind : ∀ s, allowed s → LineKind s.registry m.engine.config) (hclear : m.engine.config.model.clearOnLearn = false)
    {id : String} {metric : Metric} {entry later : Entry Rat} (hget : m.engine.cache.get? id = some entry)
    (hlater : Relation.TransGen (Entry.Renews allowed m.engine.config id metric) entry later) :
    later.models.get metric = entry.models.get metric ∧
    later.analytics.scoresOf metric.name = entry.analytics.scoresOf metric.name ∧
    (later.analytics.limit.get metric = entry.analytics.limit.get metric →
      entry.analytics.computedAt.utcMicros ≤ later.analytics.computedAt.utcMicros →
      LiveModel.CountsDown (entry.models.get metric) (entry.analytics.limit.get metric)
        ⟨entry.analytics.computedAt.utcMicros⟩ ⟨later.analytics.computedAt.utcMicros⟩
        (entry.analytics.eta.get metric) (later.analytics.eta.get metric)) := by
  have hentry := (h.keeps (Engine.inherited_reuses allowed)).engine.entries id entry hget hkind hclear
  obtain ⟨hmodels, s', stopped', previous', hcompute'⟩ := Entry.models_eq_of_renewals hkind hentry hlater
  obtain ⟨s, stopped, previous, hcompute⟩ := hentry.computed
  refine ⟨hmodels, Entry.scoresOf_eq hcompute hcompute' hmodels, fun hlimit hle => ?_⟩
  obtain ⟨target, found, hforecast, heta⟩ := Entry.exists_forecast_of_compute hcompute metric
  obtain ⟨target', found', hforecast', heta'⟩ := Entry.exists_forecast_of_compute hcompute' metric
  rw [hmodels, hlimit] at hforecast'
  rw [← heta, ← heta']
  exact LiveModel.countsDown hle hforecast hforecast'

/-- Surroundings in which a queue has grown, seen at some time. -/
def Sources.grown (clock : Int) : Sources Rat where
  thresholds _ := .ok ⟨some (.amount 1000), none⟩
  history id metric _ :=
    .finished (.ok ⟨id, metric, [⟨63839663000000000, some 0⟩, ⟨63839663060000000, some 0⟩], [10, 20]⟩)
  clock := ⟨clock, some 0⟩
  monotonic := 0
  registry := Registry.standard

/-- Surroundings with the standard registry. -/
def Sources.Standard (s : Sources Rat) : Prop := s.registry = Registry.standard

/-- The engine of the standard configuration that calculates exactly and has computed nothing. -/
def Engine.coldExact : Engine Rat := ⟨EngineConfig.standard, Cache.empty 10000, Slots.empty, ⟨0, 0, 0, 0⟩, false⟩

/-- This engine after it has computed the analytics of a queue that has grown. -/
def Machine.grown : Machine Rat :=
  ⟨(Engine.coldExact.refresh (.grown 63839664000000000) "orders").2, .grown 63839664000000000, []⟩

/-- Four tenths of a millisecond later the eta of a queue that has grown is the same. -/
theorem Machine.eta_of_grown_counts_down : grown.Reachable Sources.Standard ∧
    (∀ s, Sources.Standard s → LineKind s.registry grown.engine.config) ∧
    grown.engine.config.model.clearOnLearn = false ∧ ∃ entry later, grown.engine.cache.get? "orders" = some entry ∧
      Relation.TransGen (Entry.Renews Sources.Standard grown.engine.config "orders" .queuedBytes) entry later ∧
      entry.analytics.eta.bytes.millis = some 4940000 ∧ later.analytics.eta.bytes.millis = some 4940000 ∧
      later.analytics.scoresOf "queued_bytes" = entry.analytics.scoresOf "queued_bytes" ∧
      LiveModel.CountsDown entry.models.bytes (some (.amount 1000)) ⟨63839664000000000⟩ ⟨63839664000000400⟩
        entry.analytics.eta.bytes later.analytics.eta.bytes := by
  have hgrown : ∀ clock, Sources.Standard (.grown clock) := fun _ => rfl
  have hcreate : Engine.create Registry.standard EngineConfig.standard = .ok Engine.coldExact := rfl
  have hreachable : grown.Reachable Sources.Standard :=
    .of_rest (.refresh (.create hcreate) (hgrown _) "orders") (hgrown _)
  have hconfig : grown.engine.config = EngineConfig.standard := Engine.refresh_config _ _ _
  have hkind : ∀ s, Sources.Standard s → LineKind s.registry grown.engine.config := by
    intro s hs
    rw [hconfig, show s.registry = Registry.standard from hs]
    exact .inl rfl
  have hclear : grown.engine.config.model.clearOnLearn = false := by rw [hconfig]; rfl
  have hshown : (grown.engine.cache.get? "orders").map (fun entry => (entry.analytics.eta.bytes.millis,
      entry.analytics.limit.bytes, entry.analytics.computedAt, entry.models.bytes.map LiveModel.last)) =
      some (some 4940000, some (.amount 1000), ⟨63839664000000000, some 0⟩, some ⟨63839663060000000⟩) := by
    decide +kernel
  have hlater : (grown.engine.attempt (.grown 63839664000000400) "orders").map (fun entry =>
      (entry.analytics.eta.bytes.millis, entry.analytics.limit.bytes, entry.analytics.computedAt)) =
      .ok (some 4940000, some (.amount 1000), ⟨63839664000000400, some 0⟩) := by
    decide +kernel
  obtain ⟨entry, hget, hentry⟩ := Option.map_eq_some_iff.mp hshown
  obtain ⟨later, hattempt, hlater⟩ := Except.map_eq_ok.mp hlater
  simp only [Prod.mk.injEq] at hentry hlater
  obtain ⟨heta, hlimit, hclock, hlast⟩ := hentry
  obtain ⟨heta', hlimit', hclock'⟩ := hlater
  unfold Engine.attempt at hattempt
  rw [hget] at hattempt
  obtain ⟨live, hlive, hlast⟩ := Option.map_eq_some_iff.mp hlast
  have hrenews : Entry.Renews Sources.Standard grown.engine.config "orders" .queuedBytes entry later := by
    refine ⟨_, _, hgrown _, hattempt, ?_⟩
    rintro w series - ⟨⟩ p hp
    refine ⟨live, hlive, ?_⟩
    rw [hlast]
    have hold : ∀ p ∈ [(⟨63839663000000000, some 0⟩ : Timestamp), ⟨63839663060000000, some 0⟩].zip [(10 : Rat), 20],
        p.1.utcMicros ≤ 63839663060000000 := by decide +kernel
    exact hold p hp
  obtain ⟨-, hscores, hcounts⟩ := etas_count_down hreachable hkind hclear hget (.single hrenews)
  refine ⟨hreachable, hkind, hclear, entry, later, hget, .single hrenews, heta, heta', hscores, ?_⟩
  have hdown := hcounts (hlimit'.trans hlimit.symm) (by rw [hclock, hclock']; decide)
  rw [hclock, hclock'] at hdown
  exact hlimit ▸ hdown

end Backpressure
