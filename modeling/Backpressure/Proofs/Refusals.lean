import Backpressure.Proofs.Consistency
import Backpressure.Proofs.Lessons
import Backpressure.Trend.Registry

/-!
# Models that find no line

* `Estimator.finds_iff` : an estimator finds a line unless it fails;
* `Model.learnItems_eq_error` : for which accepted batches a lesson fails, and what it leaves behind;
* `Registry.create_standard` : the models of the standard kinds;
* `Model.standard_models_keep_accepted_batches` : what lessons make of them, and which lessons fail.
-/

namespace Backpressure.Trend
open Number

variable {K : Type} [Scalar K] {error : Error}

theorem Estimator.finds_iff {e : Estimator K} (he : e ≠ .inert) {points : List (K × K)} :
    e.Finds points ↔ ∀ error, e.Fails points error → points.length < 2 := by
  constructor
  · intro h error hfails
    by_contra hmany
    obtain ⟨line, hline⟩ := h (Nat.le_of_not_lt hmany)
    cases hline.symm.trans ((estimate_eq_error he).mpr hfails)
  · intro h hmany
    cases hline : Model.estimate e points with
    | ok line => exact ⟨line, rfl⟩
    | error error => exact absurd (h error ((estimate_eq_error he).mp hline)) (Nat.not_lt.mpr hmany)

/-- A lesson of an accepted batch fails if no line is found of two observations or more. The batch is retained by then,
and the fit is the one from before. -/
theorem Model.learnItems_eq_error {m m' : Model K} (h : m.estimator ≠ .inert) {features labels : List (Item K)}
    {batch : List (K × K)} (hbatch : observations? features labels = some batch) :
    m.learnItems features labels = (.error error, m') ↔
      (2 ≤ (m.retain batch).points.length ∧ m.estimator.Fails (m.retain batch).points error) ∧ m' = m.retain batch := by
  have hlearn := (learnItems_of_some h hbatch).trans (refit_eq (m.retain batch))
  have hfails : fitOf (m.retain batch).estimator (m.retain batch).points = .error error ↔ _ := fitOf_eq_error h
  rw [hlearn, ← hfails]
  cases fitOf (m.retain batch).estimator (m.retain batch).points <;> simp [eq_comm]

/-! ## The standard kinds -/

omit [Scalar K] in
theorem Registry.create_standard {kind : String} {config : ModelConfig K} {m : Model K}
    (h : standard.create kind config = .ok m) :
    (normalKind kind = "linear" ∧ m = Model.fresh .leastSquares true config.clearOnLearn) ∨
      (normalKind kind = "ridge" ∧ m = Model.fresh (.ridge config.ridgePenalty) true config.clearOnLearn) := by
  unfold create standard Table.get? at h
  by_cases hlinear : normalKind kind = "linear"
  · rw [hlinear] at h
    cases h
    exact .inl ⟨hlinear, rfl⟩
  · by_cases hridge : normalKind kind = "ridge"
    · rw [hridge] at h
      cases h
      exact .inr ⟨hridge, rfl⟩
    · rw [List.lookup_cons, List.lookup_cons, beq_false_of_ne hlinear, beq_false_of_ne hridge] at h
      cases h

/-- Whatever lessons a model of a standard kind had, it retains the batches that can be accepted, and it has the fit of
all of that from two observations on, if there is a line of them. A lesson fails for its batch and then leaves the model
as it was, or it fails because there is no line of two observations or more, and then the batch is retained and the fit
is the one from before: the slope penalty is refused, or the numbers that the line is solved for are not finite. -/
theorem Model.standard_models_keep_accepted_batches {kind : String} {config : ModelConfig K} {m₀ : Model K}
    (h : Registry.standard.create kind config = .ok m₀) (lessons : List (Lesson K)) :
    let m := m₀.after lessons
    let e := m₀.estimator
    ((normalKind kind = "linear" ∧ e = .leastSquares) ∨ (normalKind kind = "ridge" ∧ e = .ridge config.ridgePenalty)) ∧
      m.points = (if config.clearOnLearn then (accepted lessons).getLast?.getD [] else (accepted lessons).flatten) ∧
      ((∀ error, e.Fails m.points error → m.points.length < 2) →
        (m.fit = none ↔ m.points.length < 2) ∧ ∀ f, m.fit = some f → f.observations = m.points.length) ∧
      ∀ features labels : List (Item K), match observations? features labels with
        | none => ∃ error : Error, error.refusesBatch = true ∧ m.learnItems features labels = (.error error, m)
        | some batch =>
          (∀ error, 2 ≤ (m.retain batch).points.length → e.Fails (m.retain batch).points error →
            m.learnItems features labels = (.error error, m.retain batch)) ∧
          ((∀ error, e.Fails (m.retain batch).points error → (m.retain batch).points.length < 2) →
            (m.learnItems features labels).1 = .ok ()) := by
  intro m e
  obtain ⟨hkind, hm₀, he⟩ : ((normalKind kind = "linear" ∧ e = .leastSquares) ∨
      (normalKind kind = "ridge" ∧ e = .ridge config.ridgePenalty)) ∧
      m₀ = fresh e true config.clearOnLearn ∧ e ≠ .inert := by
    rcases Registry.create_standard h with ⟨hkind, hm₀⟩ | ⟨hkind, hm₀⟩
    · have heq : e = .leastSquares := congrArg Model.estimator hm₀
      exact ⟨.inl ⟨hkind, heq⟩, heq ▸ hm₀, heq ▸ nofun⟩
    · have heq : e = .ridge config.ridgePenalty := congrArg Model.estimator hm₀
      exact ⟨.inr ⟨hkind, heq⟩, heq ▸ hm₀, heq ▸ nofun⟩
  clear_value e
  subst hm₀
  have htaught : m.Taught e true config.clearOnLearn lessons := .after he true config.clearOnLearn lessons
  refine ⟨hkind, htaught.points, fun hline => ?_, fun features labels => ?_⟩
  · have hfinds := (Estimator.finds_iff he).mpr hline
    exact ⟨htaught.fit_eq_none hfinds, fun f hf => observations_of_fitOf (hf ▸ htaught.fitOf_eq hfinds)⟩
  · split
    · next hnone =>
      obtain ⟨error, hrefuses, heq, -⟩ := htaught.learn_none he hnone
      exact ⟨error, hrefuses, heq⟩
    · next batch hsome =>
      have hestimator : m.estimator = e := htaught.estimator
      refine ⟨fun error hmany hfails => ?_, fun hline => ?_⟩
      · exact (learnItems_eq_error (hestimator ▸ he) hsome).mpr ⟨⟨hmany, hestimator ▸ hfails⟩, rfl⟩
      · exact htaught.learn_eq_ok he hsome ((Estimator.finds_iff he).mpr hline)

/-- A ridge line with a negative penalty learns one observation, and an ordinary line one that is almost too large. The
second one makes the lesson fail, as the mean of both is too large, and is retained all the same, so that there are two
observations and no fit. -/
theorem Model.failed_batches_stay_retained :
    let config : ModelConfig Float := ⟨"ridge", false, -1⟩
    let large := Float.ofBits 0x7FE0000000000000
    let largest := Float.ofBits 0x7FEFFFFFFFFFFFFF
    (∃ m₀, Registry.standard.create "ridge" config = .ok m₀ ∧
      let m := m₀.after [.batch [.number 0] [.number 1]]
      m.points = [(0, 1)] ∧ m.fit = none ∧
        m.learnItems [.number 1] [.number 2] =
          (.error (.penaltyOutOfRange (Scalar.text (-1 : Float))), { m with points := [(0, 1), (1, 2)] })) ∧
      ∃ m₀, Registry.standard.create "linear" config = .ok m₀ ∧
        let m := m₀.after [.batch [.number 0] [.number large]]
        m.points = [(0, large)] ∧ m.fit = none ∧
          m.learnItems [.number 1] [.number largest] =
            (.error .arrayNotFinite, { m with points := [(0, large), (1, largest)] }) := by
  intro config large largest
  have hridge : Registry.standard.create "ridge" config = .ok (fresh (.ridge (-1)) true false) := by
    have hkind : normalKind "ridge" = "ridge" := by decide +kernel
    unfold Registry.create
    rw [hkind]
    rfl
  have hlinear : Registry.standard.create "linear" config = .ok (fresh .leastSquares true false) := by
    have hkind : normalKind "linear" = "linear" := by decide +kernel
    unfold Registry.create
    rw [hkind]
    rfl
  refine ⟨⟨_, hridge, ?_⟩, _, hlinear, ?_⟩
  · obtain ⟨-, -, -, hlearn⟩ := standard_models_keep_accepted_batches hridge [.batch [.number 0] [.number 1]]
    have hbatch : observations? [.number (1 : Float)] [.number 2] = some [(1, 2)] := by decide +kernel
    have htwo := hlearn [.number 1] [.number 2]
    rw [hbatch] at htwo
    exact ⟨by decide +kernel, by decide +kernel,
      htwo.1 _ (by decide +kernel) (.refused (.inr (by decide +kernel)))⟩
  · obtain ⟨-, -, -, hlearn⟩ := standard_models_keep_accepted_batches hlinear [.batch [.number 0] [.number large]]
    have hbatch : observations? [.number (1 : Float)] [.number largest] = some [(1, largest)] := by decide +kernel
    have htwo := hlearn [.number 1] [.number largest]
    rw [hbatch] at htwo
    have hoverflows : isCentred (((fresh .leastSquares true false).after
      [.batch [.number 0] [.number large]]).retain [(1, largest)]).points = false := by decide +kernel
    have hretain : ((fresh .leastSquares true false).after [.batch [.number 0] [.number large]]).retain [(1, largest)] =
      { (fresh .leastSquares true false).after [.batch [.number 0] [.number large]] with
        points := [(0, large), (1, largest)] } := by decide +kernel
    exact ⟨by decide +kernel, by decide +kernel,
      (htwo.1 _ (by decide +kernel) (.unsolved nofun hoverflows)).trans (congrArg _ hretain)⟩

end Backpressure.Trend
