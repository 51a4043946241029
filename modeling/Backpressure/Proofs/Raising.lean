import Backpressure.Proofs.Reachable
import Backpressure.Proofs.Training
import Backpressure.Proofs.Windows

/-!
# What calls raise

* `Error.isDocumented` : the errors that a call is documented to raise;
* `LiveModel.Overflows` : a rising line and a limit of which there is no finite double, `forecast_of_overflows` : the
  forecast fails, `exists_forecast` : it is made of every other live model;
* `Site.Raises` : the undocumented errors of a computation in memory, each with what leads to it,
  `Site.compute_cases` : a computation ends with an entry, with a documented error, or with one of these;
* `Engine.undocumented_errors_of_calls` : the same for the calls on every engine that is reached in memory.
-/

namespace Backpressure
open Number Time Trend

/-- The errors that a call is documented to raise. -/
def Error.isDocumented (error : Error) : Bool := error.isUnknown || error.isUpstream

/-! ## Forecasts -/

theorem exists_inMillis {x : Float} (h : Scalar.isFinite x = true) : ∃ eta, Eta.inMillis x = .ok eta := by
  have hself : Scalar.isNaN x = false := by
    show (!(x == x)) = false
    rw [Binary64.beq_self_of_isFinite h]
    rfl
  unfold Eta.inMillis roundToInt
  rw [hself, h]
  exact ⟨_, rfl⟩

theorem numberOfInt_of_overflow {n : Int} (hpos : 0 < n) (h : Binary64.overflow ≤ n) :
    numberOfInt (K := Float) n = .error .integerTooLarge := by
  have hnot : ¬ (Arithmetic.ofInt n : Float).isFinite = true := by
    rw [Binary64.isFinite_ofInt]
    omega
  exact if_neg hnot

theorem exists_numberOfInt {n : Int} (hpos : 0 < n) (h : n < Binary64.overflow) :
    ∃ x, numberOfInt (K := Float) n = .ok x := by
  have hfinite : (Arithmetic.ofInt n : Float).isFinite = true := by
    rw [Binary64.isFinite_ofInt]
    omega
  exact ⟨_, if_pos hfinite⟩

namespace LiveModel

/-- A live model whose line rises, with a limit of which there is no finite double. -/
def Overflows (live : Option (LiveModel Float)) (limit : Option Limit) : Prop :=
  ∃ s f n, live = some s ∧ s.model.fit = some f ∧ limit.map Limit.toInt = some n ∧ (Binary64.overflow : Int) ≤ n ∧
    f.degenerate = false ∧ Scalar.lt Scalar.zero f.line.slope = true

variable {s : LiveModel Float} {f : Fit Float} {limit : Option Limit} {now target : Instant}

theorem timeToLimit_of_overflow {n : Int} (hlimit : limit.map Limit.toInt = some n) (hn : Binary64.overflow ≤ n)
    (hdegenerate : f.degenerate = false) (hrises : Scalar.lt Scalar.zero f.line.slope = true) :
    s.timeToLimit f limit now = .error .integerTooLarge := by
  have hpos : 0 < n := by
    have : 0 < Binary64.overflow := by decide +kernel
    omega
  unfold timeToLimit
  rw [hlimit, hdegenerate, hrises]
  dsimp only
  rw [if_neg (by simpa using hpos), numberOfInt_of_overflow hpos hn]
  rfl

theorem exists_timeToLimit (h : ∀ n, limit.map Limit.toInt = some n → (Binary64.overflow : Int) ≤ n →
    f.degenerate = false → ¬ Scalar.lt Scalar.zero f.line.slope = true) (s : LiveModel Float) (now : Instant) :
    ∃ eta, s.timeToLimit f limit now = .ok eta := by
  unfold timeToLimit
  split
  · exact ⟨_, rfl⟩
  · next n hlimit =>
    split
    · exact ⟨_, rfl⟩
    · next hcrosses =>
      simp only [Bool.or_eq_true, decide_eq_true_eq, Bool.not_eq_true', not_or, Int.not_le, Bool.not_eq_false,
        Bool.not_eq_true] at hcrosses
      obtain ⟨⟨hpos, hdegenerate⟩, hrises⟩ := hcrosses
      have hsmall : n < Binary64.overflow := by
        by_contra hlarge
        exact h n hlimit (by omega) hdegenerate hrises
      obtain ⟨x, hx⟩ := exists_numberOfInt hpos hsmall
      rw [hx]
      simp only [bind, Except.bind]
      split
      · exact ⟨_, rfl⟩
      · split
        · next hahead =>
          rw [Bool.and_eq_true] at hahead
          exact exists_inMillis hahead.1
        · exact ⟨_, rfl⟩

theorem forecast_of_overflows {live : Option (LiveModel Float)} (h : Overflows live limit) :
    forecast live limit now target = .error .integerTooLarge := by
  obtain ⟨s, f, n, rfl, hfit, hlimit, hn, hdegenerate, hrises⟩ := h
  unfold forecast
  dsimp only
  rw [hfit]
  dsimp only
  unfold forecastFrom
  rw [timeToLimit_of_overflow hlimit hn hdegenerate hrises]
  rfl

theorem exists_forecast {live : Option (LiveModel Float)} (h : ¬ Overflows live limit) (now target : Instant) :
    ∃ found, forecast live limit now target = .ok found := by
  unfold forecast
  split
  · exact ⟨_, rfl⟩
  · next s =>
    split
    · exact ⟨_, rfl⟩
    · next f hfit =>
      have hsmall : ∀ n, limit.map Limit.toInt = some n → (Binary64.overflow : Int) ≤ n → f.degenerate = false →
          ¬ Scalar.lt Scalar.zero f.line.slope = true :=
        fun n hlimit hn hdegenerate hrises => h ⟨s, f, n, rfl, hfit, hlimit, hn, hdegenerate, hrises⟩
      obtain ⟨eta, heta⟩ := exists_timeToLimit hsmall s now
      unfold forecastFrom
      rw [heta]
      simp only [bind, Except.bind]
      split
      · exact ⟨_, rfl⟩
      · exact ⟨_, rfl⟩

end LiveModel

/-! ## Computations -/

namespace Site

/-- Whether the clock allows for the lookback and the horizon. -/
def ClockAllows (s : Site Float) (config : EngineConfig Float) : Prop :=
  ∃ now start target, s.clock.toInstant = .ok now ∧ now.earlier config.lookbackMinutes = .ok start ∧
    now.later config.horizonMinutes = .ok target

/-- Whether a computation that starts from an entry trains these live models. -/
def Trains (s : Site Float) (config : EngineConfig Float) (id : String) (previous : Option (Entry Float))
    (models : PerMetric (Option (LiveModel Float))) : Prop :=
  ∃ series, s.Answers config id series ∧ ∀ m, LiveModel.train s.registry config (series.get m)
    (previous.bind fun e => e.models.get m) = .ok (models.get m)

/-- The undocumented errors of a computation, with what leads to them. -/
inductive Raises (s : Site Float) (config : EngineConfig Float) (id : String) (previous : Option (Entry Float)) :
    Error → Prop
  /-- The line of a metric rises, and of its limit there is no finite double. -/
  | limit {limits : Thresholds} {models : PerMetric (Option (LiveModel Float))} (m : Metric)
      (hlimits : s.directory.resolve id = .ok limits) (htrains : s.Trains config id previous models)
      (hoverflows : LiveModel.Overflows (models.get m) (limits.get m)) : Raises s config id previous .integerTooLarge
  /-- There are points enough for a model, and its slope penalty is one that no line is estimated with. -/
  | penalty {limits : Thresholds} {series : PerMetric (Series Float)} (hlimits : s.directory.resolve id = .ok limits)
      (hanswers : s.Answers config id series) (hrefused : PenaltyRefused s.registry config)
      (hmany : max 2 config.minPoints ≤ ((s.recent config id).length : Int)) :
      Raises s config id previous (.penaltyOutOfRange (Scalar.text config.model.ridgePenalty))
  /-- What the line of a metric is solved for overflows, though each of its observations is finite. -/
  | unsolved {limits : Thresholds} {series : PerMetric (Series Float)} (m : Metric)
      (hlimits : s.directory.resolve id = .ok limits) (hanswers : s.Answers config id series)
      (haccepted : ¬ PenaltyRefused s.registry config)
      (hunsolved : LiveModel.Unsolved s.registry config (s.window config id m)
        (previous.bind fun e => e.models.get m)) : Raises s config id previous .arrayNotFinite
  /-- The history takes its time, and the timeout is too long to wait for it. -/
  | stuck {limits : Thresholds} {w : Lookback} (hlimits : s.directory.resolve id = .ok limits)
      (hwindow : Entry.LooksBack s.sources config w) (hwaits : Entry.CannotWait s.sources config id w) :
      Raises s config id previous .clockOverflow

variable {s : Site Float} {config : EngineConfig Float} {id : String} {previous : Option (Entry Float)} {error : Error}

theorem Raises.isDocumented_eq_false (h : s.Raises config id previous error) : error.isDocumented = false := by
  cases h <;> rfl

theorem askThresholds_eq (h : s.InMemory) : Entry.askThresholds s.sources id = s.directory.resolve id := by
  have hthresholds : s.sources.thresholds id = s.directory.resolve id := by
    show s.thresholds id = _
    unfold thresholds
    rw [h.faults]
    rfl
  unfold Entry.askThresholds
  rw [hthresholds]
  unfold ThresholdDirectory.resolve
  cases s.directory.table.get? id <;> rfl

theorem length_window (m : Metric) : (s.window config id m).length = (s.recent config id).length := List.length_map _

theorem sound_previous (hprevious : ∀ p, previous = some p → LiveModel.AllSound s.registry config p.models) (m : Metric) :
    ∀ live, (previous.bind fun e => e.models.get m) = some live → live.Sound s.registry config := by
  intro live hlive
  obtain ⟨p, hp, hmodel⟩ := Option.bind_eq_some_iff.mp hlive
  exact hprevious p hp m live hmodel

/-- What becomes of training the model of a metric where the history has answered. -/
theorem Answers.trained (hmemory : s.InMemory) (hkind : LineKind s.registry config)
    (hprevious : ∀ p, previous = some p → LiveModel.AllSound s.registry config p.models)
    {series : PerMetric (Series Float)} (hanswers : s.Answers config id series) (m : Metric) :
    LiveModel.Trained s.registry config (s.window config id m) (previous.bind fun e => e.models.get m)
      (LiveModel.train s.registry config (series.get m) (previous.bind fun e => e.models.get m)) := by
  obtain ⟨htimes, hvalues, hpoints⟩ := hanswers.points hmemory m
  exact LiveModel.trained_train hkind (sound_previous hprevious m) htimes hvalues hpoints

/-- With a penalty that is refused there are no live models, and a line is fitted as soon as there are points enough. -/
theorem fitted?_of_refused (hprevious : ∀ p, previous = some p → LiveModel.AllSound s.registry config p.models)
    (hrefused : PenaltyRefused s.registry config) (m : Metric) :
    (LiveModel.fitted? config (s.window config id m) (previous.bind fun e => e.models.get m)).isSome = true ↔
      max 2 config.minPoints ≤ ((s.recent config id).length : Int) := by
  have hnone : (previous.bind fun e => e.models.get m) = none := by
    cases hlive : previous.bind fun e => e.models.get m with
    | none => rfl
    | some live => exact absurd hrefused (sound_previous hprevious m live hlive).accepted
  rw [hnone, ← length_window m]
  unfold LiveModel.fitted?
  cases s.window config id m with
  | nil =>
    rw [List.length_nil]
    simp
  | cons p rest =>
    dsimp only [Option.filter_none]
    split
    · next hshort => exact ⟨nofun, fun hmany => absurd hshort (Int.not_lt.mpr hmany)⟩
    · next hlong => exact ⟨fun _ => Int.not_lt.mp hlong, fun _ => rfl⟩

/-- Where training fails in either metric, the computation fails with it. -/
theorem compute_of_untrained (hmemory : s.InMemory) (hkind : LineKind s.registry config)
    (hprevious : ∀ p, previous = some p → LiveModel.AllSound s.registry config p.models) {limits : Thresholds}
    (hlimits : s.directory.resolve id = .ok limits) {series : PerMetric (Series Float)}
    (hanswers : s.Answers config id series) {m : Metric}
    (h : LiveModel.train s.registry config (series.get m) (previous.bind fun e => e.models.get m) = .error error) :
    Entry.compute s.sources config false id previous = .error error := by
  have htrained := fun m => hanswers.trained hmemory hkind hprevious m
  have hsame : ∀ {m' : Metric} {error' : Error}, LiveModel.train s.registry config (series.get m')
      (previous.bind fun e => e.models.get m') = .error error' → error' = error := by
    intro m' error' h'
    have hm := htrained m
    have hm' := htrained m'
    rw [h] at hm
    rw [h'] at hm'
    cases hm <;> cases hm' <;> first | rfl | contradiction
  obtain ⟨now, start, lookback, hnow, hstart, hlookback, hask⟩ := hanswers
  unfold Entry.compute
  simp only [Except.bind_eq_error, askThresholds_eq hmemory]
  refine .inr ⟨limits, hlimits, .inr ⟨_, hnow, .inr ⟨_, hstart, .inr ⟨lookback, hlookback, .inr ⟨series, hask, ?_⟩⟩⟩⟩⟩
  cases hbytes : LiveModel.train s.registry config (series.get .queuedBytes)
      (previous.bind fun e => e.models.get .queuedBytes) with
  | error error' =>
    cases hsame hbytes
    exact .inl hbytes
  | ok bytes =>
    cases m with
    | queuedBytes => cases hbytes.symm.trans h
    | queuedCount => exact .inr ⟨bytes, hbytes, .inl h⟩

theorem compute_of_raises (hmemory : s.InMemory) (hclock : s.ClockAllows config) (hkind : LineKind s.registry config)
    (hprevious : ∀ p, previous = some p → LiveModel.AllSound s.registry config p.models)
    (h : s.Raises config id previous error) : Entry.compute s.sources config false id previous = .error error := by
  cases h with
  | @limit limits models m hlimits htrains hoverflows =>
    obtain ⟨now, start, target, hnow, hstart, htarget⟩ := hclock
    unfold Entry.compute
    simp only [Except.bind_eq_error, askThresholds_eq hmemory]
    obtain ⟨series, ⟨now', start', lookback, hnow', hstart', hlookback, hask⟩, htrain⟩ := htrains
    cases hnow.symm.trans hnow'
    cases hstart.symm.trans hstart'
    refine .inr ⟨limits, hlimits, .inr ⟨now, hnow, .inr ⟨start, hstart, .inr ⟨lookback, hlookback, .inr ⟨series, hask,
      .inr ⟨_, htrain .queuedBytes, .inr ⟨_, htrain .queuedCount, .inr ⟨target, htarget, ?_⟩⟩⟩⟩⟩⟩⟩⟩
    by_cases hbytes : LiveModel.Overflows (models.get .queuedBytes) (limits.get .queuedBytes)
    · exact .inl (LiveModel.forecast_of_overflows hbytes)
    · obtain ⟨found, hfound⟩ := LiveModel.exists_forecast hbytes now target
      cases m with
      | queuedBytes => exact absurd hoverflows hbytes
      | queuedCount => exact .inr ⟨found, hfound, .inl (LiveModel.forecast_of_overflows hoverflows)⟩
  | @penalty limits series hlimits hanswers hrefused hmany =>
    have hfits := (fitted?_of_refused hprevious hrefused .queuedBytes).mpr hmany
    have htrained := hanswers.trained hmemory hkind hprevious .queuedBytes
    cases htrain : LiveModel.train s.registry config (series.get .queuedBytes)
        (previous.bind fun e => e.models.get .queuedBytes) with
    | error e =>
      have huntrained := compute_of_untrained hmemory hkind hprevious hlimits hanswers htrain
      rw [htrain] at htrained
      cases htrained with
      | refused => exact huntrained
      | unsolved haccepted => exact absurd hrefused haccepted
    | ok live =>
      rw [htrain] at htrained
      cases htrained with
      | trained _ hnone _ =>
        rw [hnone hrefused] at hfits
        cases hfits
  | @unsolved limits series m hlimits hanswers haccepted hunsolved =>
    have htrained := hanswers.trained hmemory hkind hprevious m
    cases htrain : LiveModel.train s.registry config (series.get m) (previous.bind fun e => e.models.get m) with
    | error e =>
      have huntrained := compute_of_untrained hmemory hkind hprevious hlimits hanswers htrain
      rw [htrain] at htrained
      cases htrained with
      | refused hrefused => exact absurd hrefused haccepted
      | unsolved => exact huntrained
    | ok live =>
      rw [htrain] at htrained
      cases htrained with
      | trained _ _ hsolved => exact absurd hunsolved hsolved
  | @stuck limits w hlimits hwindow hwaits =>
    obtain ⟨now, start, hnow, hstart, hlookback⟩ := hwindow
    unfold Entry.compute
    simp only [Except.bind_eq_error, askThresholds_eq hmemory]
    exact .inr ⟨limits, hlimits, .inr ⟨now, hnow, .inr ⟨start, hstart, .inr ⟨w, hlookback,
      .inl (Entry.askHistory_of_cannotWait hwaits)⟩⟩⟩⟩

theorem exists_scoresOf {live : Option (LiveModel Float)} (h : ∀ s', live = some s' → s'.Sound s.registry config) :
    ∃ scores, Entry.scoresOf live = .ok scores := by
  unfold Entry.scoresOf
  split
  · next f hfit =>
    obtain ⟨s', hs', hf⟩ := Option.bind_eq_some_iff.mp hfit
    obtain ⟨scores, hscores⟩ := ((h s' hs').scored f hf).exists_scores
    rw [hscores]
    exact ⟨_, rfl⟩
  · exact ⟨none, rfl⟩

/-- Where no limit is too large for the lines that are trained, a computation ends with an entry. -/
theorem exists_compute (hmemory : s.InMemory) (hclock : s.ClockAllows config) {limits : Thresholds}
    (hlimits : s.directory.resolve id = .ok limits) {models : PerMetric (Option (LiveModel Float))}
    (htrains : s.Trains config id previous models) (hsound : LiveModel.AllSound s.registry config models)
    (hsmall : ∀ m, ¬ LiveModel.Overflows (models.get m) (limits.get m)) :
    ∃ entry, Entry.compute s.sources config false id previous = .ok entry ∧ entry.models = models := by
  obtain ⟨now, start, target, hnow, hstart, htarget⟩ := hclock
  obtain ⟨series, ⟨now', start', lookback, hnow', hstart', hlookback, hask⟩, htrain⟩ := htrains
  cases hnow.symm.trans hnow'
  cases hstart.symm.trans hstart'
  have hforecasts := fun m => LiveModel.exists_forecast (hsmall m) now target
  have hscores := fun m => exists_scoresOf (hsound m)
  obtain ⟨bytes, hbytes⟩ := hforecasts .queuedBytes
  obtain ⟨count, hcount⟩ := hforecasts .queuedCount
  obtain ⟨bytesScores, hbytesScores⟩ := hscores .queuedBytes
  obtain ⟨countScores, hcountScores⟩ := hscores .queuedCount
  unfold Entry.compute
  simp only [Except.bind_eq_ok, Except.pure_eq_ok, askThresholds_eq hmemory]
  exact ⟨_, ⟨limits, hlimits, now, hnow, start, hstart, lookback, hlookback, series, hask, _, htrain .queuedBytes, _,
    htrain .queuedCount, target, htarget, bytes, hbytes, count, hcount, bytesScores, hbytesScores, countScores,
    hcountScores, rfl⟩, rfl⟩

/-- A computation that the directory and the history answer ends with an entry whose live models are sound, or raises one
of the undocumented errors. -/
theorem compute_of_answers (hmemory : s.InMemory) (hclock : s.ClockAllows config) (hkind : LineKind s.registry config)
    (hprevious : ∀ p, previous = some p → LiveModel.AllSound s.registry config p.models) {limits : Thresholds}
    (hlimits : s.directory.resolve id = .ok limits) {series : PerMetric (Series Float)}
    (hanswers : s.Answers config id series) :
    (∃ entry, Entry.compute s.sources config false id previous = .ok entry ∧
      LiveModel.AllSound s.registry config entry.models) ∨ ∃ error, s.Raises config id previous error := by
  have hfinish : ∀ models : PerMetric (Option (LiveModel Float)), s.Trains config id previous models →
      LiveModel.AllSound s.registry config models →
      (∃ entry, Entry.compute s.sources config false id previous = .ok entry ∧
        LiveModel.AllSound s.registry config entry.models) ∨ ∃ error, s.Raises config id previous error := by
    intro models htrains hsound
    by_cases hover : ∃ m, LiveModel.Overflows (models.get m) (limits.get m)
    · obtain ⟨m, hm⟩ := hover
      exact .inr ⟨_, .limit m hlimits htrains hm⟩
    · obtain ⟨entry, hentry, rfl⟩ :=
        exists_compute hmemory hclock hlimits htrains hsound fun m hm => hover ⟨m, hm⟩
      exact .inl ⟨entry, hentry, hsound⟩
  have htrained := fun m => hanswers.trained hmemory hkind hprevious m
  by_cases hall : ∀ m, ∃ live, LiveModel.train s.registry config (series.get m)
      (previous.bind fun e => e.models.get m) = .ok live
  · choose models hmodels using hall
    refine hfinish (.of models) ⟨series, hanswers, fun m => ?_⟩ fun m live hlive => ?_
    · cases m <;> exact hmodels _
    · have hm := htrained m
      rw [hmodels m] at hm
      cases hm with
      | trained hsound => exact hsound live (by cases m <;> exact hlive)
  · obtain ⟨m, hm⟩ := not_forall.mp hall
    have hm' := htrained m
    cases htrain : LiveModel.train s.registry config (series.get m) (previous.bind fun e => e.models.get m) with
    | ok live => exact absurd ⟨live, htrain⟩ hm
    | error e =>
      rw [htrain] at hm'
      cases hm' with
      | refused hrefused hfits =>
        exact .inr ⟨_, .penalty hlimits hanswers hrefused ((fitted?_of_refused hprevious hrefused m).mp hfits)⟩
      | unsolved haccepted hunsolved => exact .inr ⟨_, .unsolved m hlimits hanswers haccepted hunsolved⟩

/-- A computation ends with an entry whose live models are sound, with a documented error, or with one of the others. -/
theorem compute_cases (hmemory : s.InMemory) (hcheck : config.check = .ok config) (hclock : s.ClockAllows config)
    (hkind : LineKind s.registry config) (id : String)
    (hprevious : ∀ p, previous = some p → LiveModel.AllSound s.registry config p.models) :
    (∃ entry, Entry.compute s.sources config false id previous = .ok entry ∧
      LiveModel.AllSound s.registry config entry.models) ∨
    ∃ error, Entry.compute s.sources config false id previous = .error error ∧
      (s.directory.resolve id = .error error ∧ error.isUnknown = true ∨ error.isUpstream = true ∨
        s.Raises config id previous error) := by
  cases hlimits : s.directory.resolve id with
  | error e =>
    have hunknown : e.isUnknown = true := by
      unfold ThresholdDirectory.resolve at hlimits
      split at hlimits <;> cases hlimits
      rfl
    refine .inr ⟨e, ?_, .inl ⟨rfl, hunknown⟩⟩
    unfold Entry.compute
    rw [Except.bind_eq_error, askThresholds_eq hmemory]
    exact .inl hlimits
  | ok limits =>
    obtain ⟨now, start, target, hnow, hstart, htarget⟩ := hclock
    have hpoints : 0 < config.lookbackPoints := by
      unfold EngineConfig.check at hcheck
      split at hcheck
      · cases hcheck
      · omega
    have hlookback : Lookback.of start.toTimestamp config.lookbackPoints =
        .ok ⟨start.toTimestamp, config.lookbackPoints⟩ := Lookback.of_eq_ok.mpr ⟨hpoints, rfl⟩
    cases hask : Entry.askHistory s.sources config false id ⟨start.toTimestamp, config.lookbackPoints⟩ with
    | error e =>
      refine .inr ⟨e, ?_, .inr ?_⟩
      · unfold Entry.compute
        simp only [Except.bind_eq_error, askThresholds_eq hmemory]
        exact .inr ⟨limits, hlimits, .inr ⟨now, hnow, .inr ⟨start, hstart, .inr ⟨_, hlookback, .inl hask⟩⟩⟩⟩
      · rcases askHistory_eq_error hmemory hask with ⟨hwaits, rfl⟩ | ⟨-, hupstream⟩
        · exact .inr (.stuck hlimits ⟨now, start, hnow, hstart, hlookback⟩ hwaits)
        · exact .inl hupstream
    | ok series =>
      have hanswers : s.Answers config id series := ⟨now, start, _, hnow, hstart, hlookback, hask⟩
      have hclock : s.ClockAllows config := ⟨now, start, target, hnow, hstart, htarget⟩
      rcases compute_of_answers hmemory hclock hkind hprevious hlimits hanswers with hentry | ⟨error, herror⟩
      · exact .inl hentry
      · exact .inr ⟨error, compute_of_raises hmemory hclock hkind hprevious herror, .inr (.inr herror)⟩

end Site

/-! ## Calls -/

/-- Surroundings in memory, with these kinds of models. -/
def Sources.InMemory (registry : Registry Float) (s : Sources Float) : Prop :=
  ∃ site : Site Float, site.InMemory ∧ site.registry = registry ∧ s = site.sources

namespace Engine

theorem inherited_soundModels (registry : Registry Float) : Inherited (Sources.InMemory registry)
    fun config _ entry => LineKind registry config → LiveModel.AllSound registry config entry.models := by
  rintro s ⟨site, hmemory, rfl, rfl⟩ config stopped id previous entry hprevious hentry hkind
  obtain ⟨c⟩ := Entry.exists_computation hentry
  obtain ⟨rfl, -⟩ := Entry.settled_of_askHistory c.series_eq
  have hclock : site.ClockAllows config := ⟨c.now, c.start, c.target, c.now_eq, c.start_eq, c.target_eq⟩
  have hsound := fun p hp => hprevious p hp hkind
  rcases Site.compute_of_answers hmemory hclock hkind hsound ((Site.askThresholds_eq hmemory).symm.trans c.limits_eq)
    (Site.answers_of_computation c) with ⟨found, hfound, hmodels⟩ | ⟨error, herror⟩
  · cases hentry.symm.trans hfound
    exact hmodels
  · cases hentry.symm.trans (Site.compute_of_raises hmemory hclock hkind hsound herror)

variable {e : Engine Float} {s : Sources Float} {call : Call}

/-- Whether a call makes an attempt to compute: it is forced to, or it finds nothing fresh. -/
def Attempts (e : Engine Float) (s : Sources Float) (call : Call) : Prop :=
  call.forced = true ∨ e.fresh? s call.id = none

theorem answer_of_attempts (h : e.Attempts s call) : (e.answer s call).1 = (e.concluded s call.id).1 := by
  unfold answer
  split
  · rw [refresh_eq]
  · next hforced =>
    rw [get_of_miss (h.resolve_left hforced), refresh_eq]

theorem answer_of_not_attempts (h : ¬ e.Attempts s call) : ∃ reply, (e.answer s call).1 = .ok reply := by
  unfold Attempts at h
  rw [not_or] at h
  obtain ⟨value, hvalue⟩ := Option.ne_none_iff_exists'.mp h.2
  unfold answer
  rw [if_neg h.1, get_of_hit hvalue]
  exact ⟨_, rfl⟩

section Conclude

variable {K : Type} {e : Engine K} {id : String} {previous : Option (Entry K)} {outcome : Except Error (Entry K)}
  {error : Error}

theorem outcome_of_conclude_eq_error (h : (e.conclude id previous outcome).1 = .error error) :
    outcome = .error error := by
  have hspec := conclude_spec e id previous outcome
  generalize e.conclude id previous outcome = result at hspec h
  obtain ⟨answer, after⟩ := result
  cases hspec <;> cases h
  all_goals rfl

theorem conclude_of_undocumented (h : error.isDocumented = false) :
    (e.conclude id previous (.error error)).1 = .error error := by
  cases error <;> first | rfl | cases h

theorem exists_conclude_of_upstream {entry : Entry K} (h : error.isUpstream = true) :
    ∃ reply, (e.conclude id (some entry) (.error error)).1 = .ok reply := by
  cases error <;> first | exact ⟨_, rfl⟩ | cases h

end Conclude

/-- An engine that can make an attempt for a connection, with live models that can go on learning. -/
structure Ready (e : Engine Float) (site : Site Float) (id : String) : Prop where
  memory : site.InMemory
  kind : LineKind site.registry e.config
  check : e.config.check = .ok e.config
  running : e.stopped = false
  clock : site.ClockAllows e.config
  sound : ∀ p, e.cache.get? id = some p → LiveModel.AllSound site.registry e.config p.models

namespace Ready

variable {site : Site Float} {id : String} {error : Error}

theorem attempt_eq (h : e.Ready site id) :
    e.attempt site.sources id = Entry.compute site.sources e.config false id (e.cache.get? id) := by
  unfold attempt
  rw [h.running]

theorem raises_of_concluded (h : e.Ready site id) (herror : (e.concluded site.sources id).1 = .error error)
    (hundocumented : error.isDocumented = false) : site.Raises e.config id (e.cache.get? id) error := by
  have houtcome := outcome_of_conclude_eq_error herror
  rw [h.attempt_eq] at houtcome
  unfold Error.isDocumented at hundocumented
  rw [Bool.or_eq_false_iff] at hundocumented
  rcases Site.compute_cases h.memory h.check h.clock h.kind id h.sound with ⟨entry, hentry, -⟩ | ⟨error', herror', hcause⟩
  · cases houtcome.symm.trans hentry
  · cases houtcome.symm.trans herror'
    rcases hcause with ⟨-, hunknown⟩ | hupstream | hraises
    · rw [hunknown] at hundocumented
      cases hundocumented.1
    · rw [hupstream] at hundocumented
      cases hundocumented.2
    · exact hraises

theorem concluded_of_raises (h : e.Ready site id) (hraises : site.Raises e.config id (e.cache.get? id) error) :
    (e.concluded site.sources id).1 = .error error := by
  unfold concluded
  rw [h.attempt_eq, Site.compute_of_raises h.memory h.clock h.kind h.sound hraises]
  exact conclude_of_undocumented hraises.isDocumented_eq_false

theorem exists_concluded (h : e.Ready site id) (hknown : (site.directory.resolve id).isOk = true)
    (hcached : (e.cache.get? id).isSome = true) :
    (∃ reply, (e.concluded site.sources id).1 = .ok reply) ∨
      ∃ error, site.Raises e.config id (e.cache.get? id) error := by
  have hcases := Site.compute_cases h.memory h.check h.clock h.kind id h.sound
  obtain ⟨entry, hentry⟩ := Option.isSome_iff_exists.mp hcached
  unfold concluded
  rw [h.attempt_eq]
  rw [hentry] at hcases ⊢
  rcases hcases with ⟨found, hfound, -⟩ | ⟨error, herror, ⟨hunknown, -⟩ | hupstream | hraises⟩
  · rw [hfound]
    exact .inl ⟨_, rfl⟩
  · rw [hunknown] at hknown
    cases hknown
  · rw [herror]
    exact .inl (exists_conclude_of_upstream hupstream)
  · exact .inr ⟨error, hraises⟩

end Ready

/-- On an engine that is reached in memory, with models of a line kind: a call raises an undocumented error exactly when
it makes an attempt and a limit is too large for a rising line, the slope penalty is refused, what a line is solved for
overflows, or the timeout is too long to wait for the history; and a call for a known connection with a cached entry
returns analytics otherwise. -/
theorem undocumented_errors_of_calls {registry : Registry Float} {m : Machine Float}
    (h : m.Reachable (Sources.InMemory registry)) {site : Site Float} (hmemory : site.InMemory)
    (hregistry : site.registry = registry) (hkind : LineKind registry m.engine.config)
    (hcheck : m.engine.config.check = .ok m.engine.config) (hrunning : m.engine.stopped = false)
    (hclock : site.ClockAllows m.engine.config) (call : Call) :
    let answer := (m.engine.answer site.sources call).1
    let Raises := fun error => m.engine.Attempts site.sources call ∧
      site.Raises m.engine.config call.id (m.engine.cache.get? call.id) error
    (∀ error, answer = .error error ∧ error.isDocumented = false ↔ Raises error) ∧
    ((site.directory.resolve call.id).isOk = true → (m.engine.cache.get? call.id).isSome = true →
      (∃ reply, answer = .ok reply) ∨ ∃ error, Raises error) := by
  intro answer Raises
  subst hregistry
  have hready : m.engine.Ready site call.id :=
    ⟨hmemory, hkind, hcheck, hrunning, hclock, fun p hp =>
      (h.keeps (inherited_soundModels site.registry)).engine.entries call.id p hp hkind⟩
  by_cases hattempts : m.engine.Attempts site.sources call
  · have hanswer : answer = (m.engine.concluded site.sources call.id).1 := answer_of_attempts hattempts
    rw [hanswer]
    refine ⟨fun error => ⟨?_, ?_⟩, fun hknown hcached => ?_⟩
    · rintro ⟨herror, hundocumented⟩
      exact ⟨hattempts, hready.raises_of_concluded herror hundocumented⟩
    · rintro ⟨-, hraises⟩
      exact ⟨hready.concluded_of_raises hraises, hraises.isDocumented_eq_false⟩
    · exact (hready.exists_concluded hknown hcached).imp_right fun ⟨error, hraises⟩ => ⟨error, hattempts, hraises⟩
  · obtain ⟨reply, hreply⟩ := answer_of_not_attempts hattempts
    refine ⟨fun error => ⟨?_, fun hraises => absurd hraises.1 hattempts⟩, fun _ _ => .inl ⟨reply, hreply⟩⟩
    rintro ⟨herror, -⟩
    cases hreply.symm.trans herror

end Engine

/-- Surroundings in which the queue of a connection grows, with a limit on its bytes. -/
def Site.growing (limit : Option Limit) : Site Float :=
  { Site.empty ⟨63839664000000000, some 0⟩ 0 Registry.standard with
    directory := ⟨⟨[("orders", ⟨limit, none⟩)]⟩⟩
    history := ⟨⟨[("orders", [⟨⟨63839663000000000, some 0⟩, 10, 1⟩, ⟨⟨63839663060000000, some 0⟩, 20, 1⟩])]⟩⟩ }

namespace Engine

/-- A limit of 10^400 bytes is raised, in spite of a cached entry. -/
theorem limit_of_orders_is_raised :
    let e := (cold.refresh (Site.growing none).sources "orders").2
    let site := Site.growing (some (.amount (tenTo 400 : Nat)))
    (Machine.mk e site.sources []).Reachable (Sources.InMemory Registry.standard) ∧
      (e.cache.get? "orders").isSome = true ∧
      (e.answer site.sources ⟨"orders", true⟩).1 = .error .integerTooLarge ∧
      site.Raises e.config "orders" (e.cache.get? "orders") .integerTooLarge := by
  intro e site
  have hallowed : ∀ limit, Sources.InMemory Registry.standard (Site.growing limit).sources :=
    fun limit => ⟨Site.growing limit, ⟨rfl, rfl⟩, rfl, rfl⟩
  have hreachable : (Machine.mk e site.sources []).Reachable (Sources.InMemory Registry.standard) :=
    ⟨e, site.sources, [], .refresh (.create create_cold) (hallowed none) "orders", hallowed _,
      fun move hmove => (by cases hmove), rfl⟩
  obtain ⟨hconfig, hrunning, -⟩ := cold.answer_cases (Site.growing none).sources ⟨"orders", true⟩
  have hclock : site.ClockAllows EngineConfig.standard := ⟨_, _, _, rfl, rfl, rfl⟩
  have hanswer : (e.answer site.sources ⟨"orders", true⟩).1 = .error .integerTooLarge := by decide +kernel
  have hraises := (undocumented_errors_of_calls hreachable (show site.InMemory from ⟨rfl, rfl⟩) rfl (hconfig ▸ .inl rfl)
    (hconfig ▸ rfl) hrunning (hconfig ▸ hclock) ⟨"orders", true⟩).1 .integerTooLarge
  exact ⟨hreachable, by decide +kernel, hanswer, (hraises.mp ⟨hanswer, rfl⟩).2⟩

end Engine

end Backpressure
