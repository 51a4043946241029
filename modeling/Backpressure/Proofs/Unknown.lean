import Backpressure.Proofs.Failures

/-!
# Connections that turn out to be unknown

* `Entry.Told` : whether the directory says that a connection is unknown, or a fetch that is answered in time does;
* `Entry.Overruled` : the failures of the history that decide a computation whatever its fetches say besides,
  `compute_of_overruled`, `compute_of_told` : a computation that is told ends with that, unless it is overruled;
* `Engine.unknown_connection_is_dropped` : what a call then raises or returns, and whether the connection is dropped.
-/

namespace Backpressure
open Number Time Trend

namespace Entry

variable {K : Type} [Scalar K] {s : Sources K} {config : EngineConfig K} {stopped : Bool} {id missing : String}
  {previous : Option (Entry K)} {error : Error}

/-! ## What the directory and the history say -/

/-- Whether the directory, or a fetch that is answered in time, says that a connection is unknown. -/
def Told (s : Sources K) (config : EngineConfig K) (stopped : Bool) (id : String) : Prop :=
  (∃ missing, s.thresholds id = .error (.unknownConnection missing)) ∨
    ∃ w m missing, AsksFor s config stopped id w ∧
      (s.history id m w).within? config.fetchTimeoutSeconds = some (.error (.unknownConnection missing))

/-- The failures of the history that decide a computation, whatever the fetches that are answered in time say besides:
one cannot wait so long for the others, one of the others is late, or the fetch of the bytes has failed, neither since
the connection is unknown nor for want of history. -/
inductive Overruled (s : Sources K) (config : EngineConfig K) (stopped : Bool) (id : String) : Error → Prop
  | stuck {w : Lookback} (hasks : AsksFor s config stopped id w) (hstuck : CannotWait s config id w) :
      Overruled s config stopped id .clockOverflow
  | late {w : Lookback} {m : Metric} (hasks : AsksFor s config stopped id w) (hwaits : ¬ CannotWait s config id w)
      (hlate : Late s config id w m) :
      Overruled s config stopped id (.deadline id (Scalar.tenths config.fetchTimeoutSeconds))
  | first {w : Lookback} {cause : Error} (hasks : AsksFor s config stopped id w) (hin : InTime s config id w)
      (hbytes : (s.history id .queuedBytes w).answer = .error cause) (hunknown : cause.isUnknown = false)
      (hempty : ∀ note, cause ≠ .noHistory note) :
      Overruled s config stopped id
        (.sourceFailed id ("history fetch failed for " ++ Metric.queuedBytes.name ++ ": " ++ cause.message))

theorem Overruled.isUnknown (h : Overruled s config stopped id error) : error.isUnknown = false := by
  cases h <;> rfl

/-! ## What a computation ends with -/

theorem compute_of_overruled (h : Overruled s config stopped id error) :
    compute s config stopped id previous = .error error := by
  cases h with
  | stuck hasks hstuck =>
    cases hasks.running
    exact hasks.compute_eq (askHistory_of_cannotWait hstuck)
  | late hasks hwaits hlate =>
    cases hasks.running
    exact hasks.compute_eq (askHistory_of_late hwaits hlate)
  | @first w cause hasks hin hbytes hunknown hempty =>
    cases hasks.running
    refine hasks.compute_eq ?_
    rw [askHistory_of_inTime hin]
    exact Except.bind_eq_error.mpr (.inl (settle_eq_error.mpr (.inr ⟨cause, hbytes, hunknown, hempty, rfl⟩)))

theorem compute_of_told (h : Told s config stopped id) (hheard : ¬ ∃ error, Overruled s config stopped id error) :
    ∃ missing, compute s config stopped id previous = .error (.unknownConnection missing) := by
  rcases h with ⟨missing, hlimits⟩ | ⟨w, m, missing, hasks, hfetch⟩
  · exact ⟨missing, compute_of_askThresholds (askThresholds_eq_unknown.mpr hlimits)⟩
  suffices hask : ∃ missing, askHistory s config stopped id w = .error (.unknownConnection missing) by
    obtain ⟨missing, hask⟩ := hask
    exact ⟨missing, hasks.compute_eq hask⟩
  cases hasks.running
  have hspec := askHistory_spec s config id w
  generalize askHistory s config false id w = outcome at hspec ⊢
  -- the fetch that has said so is the one that is settled first, or the one before it was overruling
  cases hspec with
  | stuck hstuck => exact absurd ⟨_, .stuck hasks hstuck⟩ hheard
  | late hwaits hlate => exact absurd ⟨_, .late hasks hwaits hlate⟩ hheard
  | bytes hin hsettle =>
    rcases settle_eq_error.mp hsettle with ⟨first, -, rfl⟩ | ⟨cause, hbytes, hunknown, hempty, -⟩
    · exact ⟨first, rfl⟩
    · exact absurd ⟨_, .first hasks hin hbytes hunknown hempty⟩ hheard
  | count hin hsettled hsettle =>
    have hanswer := Option.some.inj ((Fetch.within?_eq (hin.arrives m)).symm.trans hfetch)
    cases m with
    | queuedBytes =>
      rw [hanswer] at hsettled
      cases hsettled
    | queuedCount =>
      rw [hanswer] at hsettle
      cases hsettle
      exact ⟨missing, rfl⟩
  | both hin hsettled =>
    have hanswer := Option.some.inj ((Fetch.within?_eq (hin.arrives m)).symm.trans hfetch)
    have hm := hsettled m
    rw [hanswer] at hm
    cases hm

/-- A computation ends with the word that a connection is unknown only if it was told so, or if making a model ends with
it. -/
theorem told_of_compute (h : compute s config stopped id previous = .error (.unknownConnection missing)) :
    Told s config stopped id ∨
      s.registry.create config.model.kind config.model = .error (.unknownConnection missing) := by
  rcases compute_eq_documented rfl h with hlimits | ⟨limits, w, hlimits, hwindow, hask⟩ | hmade
  · exact .inl (.inl ⟨missing, askThresholds_eq_unknown.mp hlimits⟩)
  · refine .inl ?_
    cases stopped with
    | true => cases hask
    | false =>
      have hasks : AsksFor s config false id w := ⟨⟨limits, askThresholds_eq_ok.mp hlimits⟩, hwindow, rfl⟩
      have htold : ∀ {m}, InTime s config id w →
          settle id m (s.history id m w).answer = .error (.unknownConnection missing) → Told s config false id := by
        intro m hin hsettle
        rcases settle_eq_error.mp hsettle with ⟨other, hanswer, -⟩ | ⟨cause, -, -, -, hcause⟩
        · exact .inr ⟨w, m, other, hasks, (Fetch.within?_eq (hin.arrives m)).trans (congrArg some hanswer)⟩
        · cases hcause
      have hheard := askHistory_spec s config id w
      rw [hask] at hheard
      cases hheard with
      | bytes hin hsettle => exact htold hin hsettle
      | count hin _ hsettle => exact htold hin hsettle
  · exact .inr hmade

end Entry

/-! ## Calls -/

namespace Engine

variable {K : Type} [Scalar K] {e : Engine K} {s : Sources K} {id missing : String} {error : Error}

theorem answer_eq_refresh {call : Call} (h : call.forced = true ∨ e.fresh? s call.id = none) :
    e.answer s call = e.refresh s call.id := by
  unfold answer
  split
  · rfl
  · next hforced => exact get_of_miss (h.resolve_left hforced)

theorem concluded_of_unknown (h : e.attempt s id = .error (.unknownConnection missing)) :
    (e.concluded s id).1 = .error (.unknownConnection missing) ∧
      (e.concluded s id).2.cache = e.cache.drop id := by
  unfold concluded
  rw [h]
  exact ⟨rfl, rfl⟩

/-- A failure of another kind leaves the cache as it is. One that comes from the sources gives way to what is cached. -/
theorem concluded_of_known (h : e.attempt s id = .error error) (hknown : error.isUnknown = false) :
    (e.concluded s id).2.cache = e.cache ∧
      (e.concluded s id).1 = match error.isUpstream, e.cache.get? id with
        | true, some entry => .ok ⟨.stale, entry.analytics.asStale⟩
        | _, _ => .error error := by
  unfold concluded
  rw [h]
  cases error with
  | unknownConnection => cases hknown
  | sourceFailed => cases e.cache.get? id <;> exact ⟨rfl, rfl⟩
  | deadline => cases e.cache.get? id <;> exact ⟨rfl, rfl⟩
  | _ => exact ⟨rfl, rfl⟩

/-- A call that finds nothing fresh, or is forced, says that a connection is unknown if it was told so and was not
overruled, and only then unless making a model ends with those words; the connection is then dropped. Where it is
overruled the cache stays as it is, and what is cached is returned as stale unless the timeout is one that cannot be
waited for. -/
theorem unknown_connection_is_dropped (call : Call) (h : call.forced = true ∨ e.fresh? s call.id = none) :
    let (answer, after) := e.answer s call
    let told := Entry.Told s e.config e.stopped call.id
    let overruled := Entry.Overruled s e.config e.stopped call.id
    (told ∧ (¬ ∃ error, overruled error) → ∃ missing, answer = .error (.unknownConnection missing)) ∧
    (∀ missing, answer = .error (.unknownConnection missing) →
      after.cache = e.cache.drop call.id ∧ call.id ∉ after.cachedIds ∧ (¬ ∃ error, overruled error) ∧
        (told ∨ s.registry.create e.config.model.kind e.config.model = .error (.unknownConnection missing))) ∧
    ∀ error, overruled error → after.cache = e.cache ∧
      answer = match error.isUpstream, e.cache.get? call.id with
        | true, some entry => .ok ⟨.stale, entry.analytics.asStale⟩
        | _, _ => .error error := by
  rw [answer_eq_refresh h, refresh_eq]
  dsimp only
  have hoverruled : ∀ error, Entry.Overruled s e.config e.stopped call.id error →
      e.attempt s call.id = .error error := fun _ => Entry.compute_of_overruled
  refine ⟨?_, fun missing hmissing => ?_, fun error herror =>
    concluded_of_known (hoverruled error herror) herror.isUnknown⟩
  · rintro ⟨htold, hheard⟩
    obtain ⟨missing, hmissing⟩ : ∃ missing, e.attempt s call.id = .error (.unknownConnection missing) :=
      Entry.compute_of_told htold hheard
    exact ⟨missing, (concluded_of_unknown hmissing).1⟩
  · have hattempt : e.attempt s call.id = .error (.unknownConnection missing) := outcome_of_conclude_eq_error hmissing
    obtain ⟨-, hcache⟩ := concluded_of_unknown hattempt
    refine ⟨hcache, ?_, ?_, Entry.told_of_compute hattempt⟩
    · unfold cachedIds
      rw [hcache, Cache.ids_drop]
      simp
    · rintro ⟨error, herror⟩
      have hknown := herror.isUnknown
      cases hattempt.symm.trans (hoverruled error herror)
      cases hknown

/-- The bytes fail for another cause while the count says that the connection is unknown: it stays cached. -/
theorem unknown_connection_is_kept_by_warm :
    let s : Sources Float := { Sources.quiet with
      history := fun id metric _ => match metric with
        | .queuedBytes => .finished (.error (.raised "RuntimeError" "connection lost"))
        | .queuedCount => .finished (.error (.unknownConnection id)) }
    Entry.Told s warm.config warm.stopped "orders" ∧ (warm.answer s ⟨"orders", true⟩).2.cache = warm.cache ∧
      ∃ entry, warm.cache.get? "orders" = some entry ∧
        (warm.answer s ⟨"orders", true⟩).1 = .ok ⟨.stale, entry.analytics.asStale⟩ := by
  intro s
  obtain ⟨w, hw⟩ : ∃ w, Entry.LooksBack s warm.config w := ⟨_, _, _, rfl, rfl, rfl⟩
  have hasks : Entry.AsksFor s warm.config warm.stopped "orders" w := ⟨⟨_, rfl⟩, hw, rfl⟩
  have hoverruled : Entry.Overruled s warm.config warm.stopped "orders"
      (.sourceFailed "orders" "history fetch failed for queued_bytes: connection lost") :=
    .first hasks (Entry.inTime_of_finished fun m => by cases m <;> rfl) rfl rfl nofun
  obtain ⟨-, -, hkept⟩ := unknown_connection_is_dropped (e := warm) (s := s) ⟨"orders", true⟩ (.inl rfl)
  obtain ⟨hcache, hanswer⟩ := hkept _ hoverruled
  refine ⟨.inr ⟨w, .queuedCount, "orders", hasks, rfl⟩, hcache, ?_⟩
  obtain ⟨entry, hentry⟩ : ∃ entry, warm.cache.get? "orders" = some entry := ⟨_, rfl⟩
  dsimp only at hanswer
  rw [hentry] at hanswer
  exact ⟨entry, hentry, hanswer⟩

end Engine

end Backpressure
