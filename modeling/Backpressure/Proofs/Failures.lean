import Backpressure.Proofs.Raising

/-!
# Where the errors of a computation come from

* `Errors` : a step that raises only certain errors, `OwnErrors` : one that raises none of those that a call is
  documented to raise, and not that of a missing model kind;
* `LiveModel.errors_train`, `ownErrors_forecast`, `Entry.ownErrors_scoresOf` : forecasting and scoring are such steps,
  and so is training unless no model can be made;
* `Entry.Heard`, `askHistory_spec` : what can become of asking the history;
* `Entry.AsksFor` : whether a computation comes to ask the history, and for which window;
* `Entry.compute_eq_error` : an error of a computation is one of the directory, of the history, of making a model or its
  own;
* `Entry.isUnknownKind_of_compute` : a computation misses a model kind only where making a model does;
* `Entry.Answered`, `answered_of_undocumented` : where the error is not documented, the directory and the history have
  answered.
-/

namespace Backpressure
open Number Time Trend

/-! ## Steps with errors of their own -/

/-- Whether a model kind turned out to be unknown. -/
def Error.isUnknownKind : Error → Bool
  | .unknownModelKind _ _ => true
  | _ => false

/-- An error that no call is documented to raise, and not that of a missing model kind. -/
def Error.isOwn (error : Error) : Bool := !error.isDocumented && !error.isUnknownKind

/-- A step that raises only errors with `P`. -/
def Errors (P : Error → Prop) {α : Type} (x : Except Error α) : Prop := ∀ error, x = .error error → P error

/-- A step that raises only errors of its own. -/
abbrev OwnErrors {α : Type} (x : Except Error α) : Prop := Errors (fun error => error.isOwn = true) x

section

variable {P Q : Error → Prop} {α β : Type}

theorem errors_ok (a : α) : Errors P (.ok a) := fun _ h => by cases h

theorem errors_error {error : Error} (h : P error) : Errors P (.error error : Except Error α) := by
  intro other hother
  cases hother
  exact h

theorem Errors.mono {x : Except Error α} (hx : Errors P x) (h : ∀ error, P error → Q error) : Errors Q x :=
  fun error herror => h error (hx error herror)

theorem Errors.bind {x : Except Error α} {f : α → Except Error β} (hx : Errors P x) (hf : ∀ a, Errors P (f a)) :
    Errors P (x >>= f) := by
  intro error h
  rcases Except.bind_eq_error.mp h with hfirst | ⟨a, -, hsecond⟩
  · exact hx error hfirst
  · exact hf a error hsecond

theorem Errors.map {x : Except Error α} (hx : Errors P x) (f : α → β) : Errors P (x.map f) := by
  cases x with
  | ok a => exact errors_ok _
  | error error => exact errors_error (hx error rfl)

theorem errors_mapM {f : α → Except Error β} (hf : ∀ a, Errors P (f a)) (xs : List α) : Errors P (xs.mapM f) := by
  intro error h
  obtain ⟨x, -, hx⟩ := exists_of_mapM_eq_error h
  exact hf x error hx

end

/-! ## Times and numbers -/

theorem Time.Instant.ownErrors_ofMicros (micros : Int) : OwnErrors (Instant.ofMicros micros) := by
  unfold Instant.ofMicros
  split
  · exact errors_ok _
  · exact errors_error rfl

theorem Time.Timestamp.ownErrors_toInstant (t : Timestamp) : OwnErrors t.toInstant := Instant.ownErrors_ofMicros _

theorem Time.ownErrors_spanOfMinutes (minutes : Int) : OwnErrors (spanOfMinutes minutes) := by
  unfold spanOfMinutes
  dsimp only
  split
  · exact errors_error rfl
  · split
    · exact errors_error rfl
    · exact errors_ok _

theorem Time.Instant.ownErrors_later (t : Instant) (minutes : Int) : OwnErrors (t.later minutes) :=
  (ownErrors_spanOfMinutes minutes).bind fun _ => ownErrors_ofMicros _

theorem Time.Instant.ownErrors_earlier (t : Instant) (minutes : Int) : OwnErrors (t.earlier minutes) :=
  (ownErrors_spanOfMinutes minutes).bind fun _ => ownErrors_ofMicros _

theorem Lookback.ownErrors_of (since : Timestamp) (n : Int) : OwnErrors (Lookback.of since n) := by
  unfold Lookback.of
  split
  · exact errors_error rfl
  · exact errors_ok _

variable {K : Type} [Scalar K]

theorem ownErrors_numberOfInt (n : Int) : OwnErrors (numberOfInt n : Except Error K) := by
  unfold numberOfInt
  dsimp only
  split
  · exact errors_ok _
  · exact errors_error rfl

theorem Eta.ownErrors_inMillis (x : K) : OwnErrors (Eta.inMillis x) := by
  refine Errors.map ?_ _
  unfold roundToInt
  split
  · exact errors_error rfl
  · split
    · exact errors_ok _
    · exact errors_error rfl

/-! ## Training and forecasting -/

namespace Trend

theorem Model.ownErrors_estimate (e : Estimator K) (points : List (K × K)) :
    OwnErrors (Model.estimate e points) := by
  have hsolve : ∀ penalty solvable, OwnErrors (Model.solve penalty points solvable) := by
    intro penalty solvable
    unfold Model.solve
    split
    · exact errors_ok _
    · exact errors_error rfl
  unfold Model.estimate
  split
  · exact hsolve _ _
  · split
    · exact hsolve _ _
    · exact errors_error rfl
  · exact errors_ok _
  · exact errors_error rfl

theorem Model.ownErrors_refit (m : Model K) : OwnErrors m.refit.1 := by
  unfold refit
  split
  · exact errors_ok _
  · have hestimate : OwnErrors (estimate m.estimator m.points) := ownErrors_estimate _ _
    split
    · exact errors_ok _
    · next error herror => exact errors_error (hestimate error herror)

theorem Model.ownErrors_learn (m : Model K) (xs ys : List K) : OwnErrors (m.learn xs ys).1 := by
  have hrefusal : ∀ error, refusal? xs ys = some error → error.isOwn = true := by
    intro error h
    unfold refusal? at h
    split at h
    · cases h
      exact rfl
    · split at h
      · cases h
        exact rfl
      · split at h <;> cases h
        rfl
  unfold learn
  split
  · exact errors_ok _
  · split
    · next error herror => exact errors_error (hrefusal error herror)
    · exact ownErrors_refit _

end Trend

namespace LiveModel

theorem ownErrors_learnAt (m : Model K) (origin : Instant) (times : List Instant) (values : List K) :
    OwnErrors (learnAt m origin times values) := by
  have hlearn : OwnErrors (m.learn (times.map (origin.millisTo ·)) values).1 := Model.ownErrors_learn m _ _
  unfold learnAt
  split
  · next error _ h => exact errors_error (hlearn error (by rw [h]))
  · split
    · exact errors_ok _
    · exact errors_ok _

/-- What fails in training is the making of a model, or training itself. -/
def Fails (registry : Registry K) (config : EngineConfig K) (error : Error) : Prop :=
  registry.create config.model.kind config.model = .error error ∨ error.isOwn = true

theorem errors_trainFresh (registry : Registry K) (config : EngineConfig K) (times : List Instant)
    (values : List K) : Errors (Fails registry config) (trainFresh registry config times values) := by
  unfold trainFresh
  split
  · exact errors_ok _
  · split
    · exact errors_ok _
    · refine Errors.bind (fun error herror => .inl herror) fun m => ?_
      exact (ownErrors_learnAt m _ _ values).mono fun _ => .inr

theorem errors_train (registry : Registry K) (config : EngineConfig K) (series : Series K)
    (previous : Option (LiveModel K)) : Errors (Fails registry config) (train registry config series previous) := by
  refine ((errors_mapM Timestamp.ownErrors_toInstant series.timestamps).mono fun _ => .inr).bind fun times => ?_
  split
  · split
    · unfold extend
      dsimp only
      split
      · exact errors_ok _
      · exact (ownErrors_learnAt _ _ _ _).mono fun _ => .inr
    · exact errors_trainFresh registry config times series.values
  · exact errors_trainFresh registry config times series.values

theorem ownErrors_timeToLimit (s : LiveModel K) (f : Fit K) (limit : Option Limit) (now : Instant) :
    OwnErrors (s.timeToLimit f limit now) := by
  unfold timeToLimit
  split
  · exact errors_ok _
  · split
    · exact errors_ok _
    · refine (ownErrors_numberOfInt _).bind fun y => ?_
      split
      · exact errors_ok _
      · dsimp only
        split
        · exact Eta.ownErrors_inMillis _
        · exact errors_ok _

theorem ownErrors_forecast (s : Option (LiveModel K)) (limit : Option Limit) (now target : Instant) :
    OwnErrors (forecast s limit now target) := by
  unfold forecast
  split
  · exact errors_ok _
  · split
    · exact errors_ok _
    · refine (ownErrors_timeToLimit _ _ limit now).bind fun eta => ?_
      dsimp only
      split
      · exact errors_ok _
      · exact errors_ok _

end LiveModel

/-! ## What the directory and the history answer -/

namespace Entry

variable {s : Sources K} {config : EngineConfig K} {stopped : Bool} {id missing : String}
  {previous : Option (Entry K)} {error : Error}

section

omit [Scalar K]

theorem askThresholds_eq_unknown : askThresholds s id = .error (.unknownConnection missing) ↔
    s.thresholds id = .error (.unknownConnection missing) := by
  unfold askThresholds
  cases s.thresholds id with
  | ok found => simp
  | error e => cases e <;> simp

theorem isDocumented_of_askThresholds (h : askThresholds s id = .error error) : error.isDocumented = true := by
  unfold askThresholds at h
  split at h <;> cases h <;> rfl

/-- The fetch of a metric fails since the connection is unknown, or for a cause that is shown. -/
theorem settle_eq_error {m : Metric} {answer : Except Error (Series K)} :
    settle id m answer = .error error ↔
      (∃ missing, answer = .error (.unknownConnection missing) ∧ error = .unknownConnection missing) ∨
      ∃ cause, answer = .error cause ∧ cause.isUnknown = false ∧ (∀ note, cause ≠ .noHistory note) ∧
        error = .sourceFailed id ("history fetch failed for " ++ m.name ++ ": " ++ cause.message) := by
  constructor
  · intro h
    unfold settle at h
    split at h
    · cases h
    · cases h
    · cases h
      exact .inl ⟨_, rfl, rfl⟩
    · next cause hempty hknown =>
      cases h
      refine .inr ⟨cause, rfl, ?_, hempty, rfl⟩
      cases cause <;> first | rfl | exact absurd rfl (hknown _)
  · rintro (⟨missing, rfl, rfl⟩ | ⟨cause, rfl, hunknown, hempty, rfl⟩)
    · rfl
    · cases cause <;> first | rfl | exact absurd rfl (hempty _) | cases hunknown

theorem isDocumented_of_settle {m : Metric} {answer : Except Error (Series K)} (h : settle id m answer = .error error) :
    error.isDocumented = true := by
  rcases settle_eq_error.mp h with ⟨missing, -, rfl⟩ | ⟨cause, -, -, -, rfl⟩ <;> rfl

end

/-- What becomes of asking the history while the workers run: one cannot wait for it, a fetch is late, the one of the
bytes or else the one of the count has failed, or both series are there. -/
inductive Heard (s : Sources K) (config : EngineConfig K) (id : String) (w : Lookback) :
    Except Error (PerMetric (Series K)) → Prop
  | stuck (h : CannotWait s config id w) : Heard s config id w (.error .clockOverflow)
  | late {m : Metric} (hwaits : ¬ CannotWait s config id w) (h : Late s config id w m) :
      Heard s config id w (.error (.deadline id (Scalar.tenths config.fetchTimeoutSeconds)))
  | bytes {error : Error} (hin : InTime s config id w)
      (h : settle id .queuedBytes (s.history id .queuedBytes w).answer = .error error) :
      Heard s config id w (.error error)
  | count {series : Series K} {error : Error} (hin : InTime s config id w)
      (hbytes : settle id .queuedBytes (s.history id .queuedBytes w).answer = .ok series)
      (h : settle id .queuedCount (s.history id .queuedCount w).answer = .error error) :
      Heard s config id w (.error error)
  | both {series : PerMetric (Series K)} (hin : InTime s config id w)
      (h : ∀ m, settle id m (s.history id m w).answer = .ok (series.get m)) : Heard s config id w (.ok series)

theorem askHistory_spec (s : Sources K) (config : EngineConfig K) (id : String) (w : Lookback) :
    Heard s config id w (askHistory s config false id w) := by
  by_cases hwaits : CannotWait s config id w
  · exact (askHistory_of_cannotWait hwaits).symm ▸ .stuck hwaits
  by_cases hlate : ∃ m, Late s config id w m
  · obtain ⟨m, hm⟩ := hlate
    exact (askHistory_of_late hwaits hm).symm ▸ .late hwaits hm
  have hin : InTime s config id w := ⟨hwaits, fun m hm => hlate ⟨m, hm⟩⟩
  cases hask : askHistory s config false id w with
  | ok series => exact .both hin (settled_of_askHistory hask).2.2
  | error error =>
    rw [askHistory_of_inTime hin] at hask
    rcases Except.bind_eq_error.mp hask with hsettle | ⟨series, hbytes, hask⟩
    · exact .bytes hin hsettle
    · rcases Except.bind_eq_error.mp hask with hsettle | ⟨_, -, hask⟩
      · exact .count hin hbytes hsettle
      · cases hask

theorem isDocumented_of_askHistory {w : Lookback} (hwaits : ¬ CannotWait s config id w)
    (h : askHistory s config false id w = .error error) : error.isDocumented = true := by
  have hheard := askHistory_spec s config id w
  rw [h] at hheard
  cases hheard with
  | stuck hstuck => exact absurd hstuck hwaits
  | late => rfl
  | bytes _ hsettle => exact isDocumented_of_settle hsettle
  | count _ _ hsettle => exact isDocumented_of_settle hsettle

/-! ## Computations -/

theorem ownErrors_scoresOf (s : Option (LiveModel K)) : OwnErrors (scoresOf s) := by
  unfold scoresOf
  split
  · refine Errors.map ?_ _
    unfold Scores.ofFit
    refine Errors.bind ?_ fun _ => errors_ok _
    unfold Fit.rootMeanSquareError
    split
    · exact errors_ok _
    · split
      · exact errors_ok _
      · split
        · exact errors_error rfl
        · exact errors_ok _
  · exact errors_ok _

/-- Whether a computation comes to ask the history, and for this window. -/
structure AsksFor (s : Sources K) (config : EngineConfig K) (stopped : Bool) (id : String) (w : Lookback) : Prop where
  limits : ∃ limits, s.thresholds id = .ok limits
  window : LooksBack s config w
  running : stopped = false

/-- An error of a computation is one of the directory, of the history asked for the window of the clock, of making a
model, or its own. -/
theorem compute_eq_error (h : compute s config stopped id previous = .error error) :
    askThresholds s id = .error error ∨
      (∃ limits w, askThresholds s id = .ok limits ∧ LooksBack s config w ∧
        askHistory s config stopped id w = .error error) ∨
      LiveModel.Fails s.registry config error := by
  unfold compute at h
  rcases Except.bind_eq_error.mp h with hlimits | ⟨limits, hlimits, h⟩
  · exact .inl hlimits
  refine .inr ?_
  rcases Except.bind_eq_error.mp h with hnow | ⟨now, hnow, h⟩
  · exact .inr (.inr (Timestamp.ownErrors_toInstant _ error hnow))
  rcases Except.bind_eq_error.mp h with hstart | ⟨start, hstart, h⟩
  · exact .inr (.inr (Instant.ownErrors_earlier _ _ error hstart))
  rcases Except.bind_eq_error.mp h with hwindow | ⟨w, hwindow, h⟩
  · exact .inr (.inr (Lookback.ownErrors_of _ _ error hwindow))
  rcases Except.bind_eq_error.mp h with hseries | ⟨series, -, h⟩
  · exact .inl ⟨limits, w, hlimits, ⟨now, start, hnow, hstart, hwindow⟩, hseries⟩
  refine .inr ((LiveModel.errors_train _ _ _ _).bind (fun _ => ?_) error h)
  refine (LiveModel.errors_train _ _ _ _).bind fun _ => Errors.mono ?_ fun _ => .inr
  refine (Instant.ownErrors_later _ _).bind fun _ => ?_
  refine (LiveModel.ownErrors_forecast _ _ _ _).bind fun _ => (LiveModel.ownErrors_forecast _ _ _ _).bind fun _ => ?_
  exact (ownErrors_scoresOf _).bind fun _ => (ownErrors_scoresOf _).bind fun _ => errors_ok _

/-- A documented error of a computation is one of the directory, of the history asked for the window of the clock, or of
making a model. -/
theorem compute_eq_documented (hdocumented : error.isDocumented = true)
    (h : compute s config stopped id previous = .error error) : askThresholds s id = .error error ∨
      (∃ limits w, askThresholds s id = .ok limits ∧ LooksBack s config w ∧
        askHistory s config stopped id w = .error error) ∨
      s.registry.create config.model.kind config.model = .error error := by
  refine (compute_eq_error h).imp_right (Or.imp_right fun hfails => hfails.resolve_right fun hown => ?_)
  unfold Error.isOwn at hown
  rw [hdocumented] at hown
  cases hown

theorem compute_of_askThresholds (h : askThresholds s id = .error error) :
    compute s config stopped id previous = .error error := Except.bind_eq_error.mpr (.inl h)

/-- A computation that asks the history ends with the error that this answers. -/
theorem AsksFor.compute_eq {w : Lookback} (h : AsksFor s config stopped id w)
    (hask : askHistory s config stopped id w = .error error) :
    compute s config stopped id previous = .error error := by
  obtain ⟨limits, hlimits⟩ := h.limits
  obtain ⟨now, start, hnow, hstart, hwindow⟩ := h.window
  unfold compute
  simp only [Except.bind_eq_error]
  exact .inr ⟨limits, askThresholds_eq_ok.mpr hlimits, .inr ⟨now, hnow, .inr ⟨start, hstart, .inr ⟨w, hwindow,
    .inl hask⟩⟩⟩⟩

/-- A computation misses a model kind only where making a model does. -/
theorem isUnknownKind_of_compute (h : compute s config stopped id previous = .error error)
    (hkind : error.isUnknownKind = true) : s.registry.create config.model.kind config.model = .error error := by
  have hother : ∀ {e : Error}, e.isDocumented = true → e.isUnknownKind = false := by
    intro e he
    cases e <;> first | rfl | cases he
  rcases compute_eq_error h with hlimits | ⟨limits, w, -, -, hseries⟩ | hmade | hown
  · cases (hother (isDocumented_of_askThresholds hlimits)).symm.trans hkind
  · cases stopped with
    | true =>
      cases hseries
      cases hkind
    | false =>
      by_cases hwaits : CannotWait s config id w
      · cases (askHistory_of_cannotWait hwaits).symm.trans hseries
        cases hkind
      · cases (hother (isDocumented_of_askHistory hwaits hseries)).symm.trans hkind
  · exact hmade
  · unfold Error.isOwn at hown
    rw [hkind, Bool.not_true, Bool.and_false] at hown
    cases hown

/-- Whether the directory has answered, and also the history, in time and for both metrics, if it was asked and could be
waited for. -/
structure Answered (s : Sources K) (config : EngineConfig K) (stopped : Bool) (id : String) : Prop where
  limits : ∃ limits, s.thresholds id = .ok limits
  history : ∀ w, AsksFor s config stopped id w → ¬ CannotWait s config id w → InTime s config id w ∧
    ∀ m, (∃ series, (s.history id m w).answer = .ok series) ∨
      ∃ note, (s.history id m w).answer = .error (.noHistory note)

/-- An undocumented error does not come from the directory or the history: both have answered, unless one cannot wait
for the history. -/
theorem answered_of_undocumented (h : compute s config stopped id previous = .error error)
    (hown : error.isDocumented = false) : Answered s config stopped id := by
  have hnot : ∀ {e : Error}, e.isDocumented = true → compute s config stopped id previous ≠ .error e := by
    intro e he heq
    cases heq.symm.trans h
    rw [he] at hown
    cases hown
  refine ⟨?_, fun w hasks hwaits => ?_⟩
  · cases hlimits : askThresholds s id with
    | ok limits => exact ⟨limits, askThresholds_eq_ok.mp hlimits⟩
    | error e => exact absurd (compute_of_askThresholds hlimits) (hnot (isDocumented_of_askThresholds hlimits))
  · cases hasks.running
    cases hask : askHistory s config false id w with
    | error e => exact absurd (hasks.compute_eq hask) (hnot (isDocumented_of_askHistory hwaits hask))
    | ok series =>
      obtain ⟨-, hin, hsettled⟩ := settled_of_askHistory hask
      exact ⟨hin, fun m => (settle_eq_ok (hsettled m)).imp (fun h => ⟨_, h⟩) fun ⟨note, h, _⟩ => ⟨note, h⟩⟩

end Entry

end Backpressure
