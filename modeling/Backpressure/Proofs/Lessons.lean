import Mathlib.Data.List.DropRight
import Backpressure.Proofs.Training

/-!
# What a model has learned after batches one after another

* `Lesson` : a batch for a model, or that it forgets all; `Model.after` : the model after lessons;
* `observations?` : the observations of a batch that can be accepted, `accepted` : the accepted batches since the model
  last forgot;
* `Model.learnItems_of_some`, `learnItems_of_none` : an accepted batch is retained and the line fitted again, a refused
  one changes nothing;
* `Model.Taught` : a model with what there is to retain of lessons and the fit of that, `Taught.after` : so is every
  model after lessons;
* `Model.lessons_make_one_batch` : its fit is the one of a model that has learned all at once.
-/

namespace Backpressure

/-- The causes for which a batch is refused. -/
def Error.refusesBatch : Error → Bool
  | .unevenRows _ | .emptyBatch | .lengthMismatch _ _ | .observationNotFinite => true
  | _ => false

namespace Trend
open Number

variable {K : Type} [Scalar K]

/-- Observations that are finite numbers. -/
def FiniteNumbers (points : List (K × K)) : Prop :=
  ∀ p ∈ points, Scalar.isFinite p.1 = true ∧ Scalar.isFinite p.2 = true

/-! ## Lessons -/

/-- A batch of observations for a model, or that it forgets all it has learned. -/
inductive Lesson (K : Type) where
  | batch (features labels : List (Item K))
  | clear

/-- The observations of a batch that is not empty, has one label for each feature and finite numbers only. -/
def observations? (features labels : List (Item K)) : Option (List (K × K)) :=
  match Item.flatten features, Item.flatten labels with
  | .ok xs, .ok ys =>
    if xs ≠ [] ∧ xs.length = ys.length ∧ (∀ x ∈ xs, Scalar.isFinite x = true) ∧ ∀ y ∈ ys, Scalar.isFinite y = true then
      some (xs.zip ys)
    else none
  | _, _ => none

namespace Lesson

omit [Scalar K] in
/-- Whether a model forgets. -/
def isClear : Lesson K → Bool
  | batch _ _ => false
  | clear => true

/-- The observations of a batch that can be accepted. -/
def accepted? : Lesson K → Option (List (K × K))
  | batch features labels => observations? features labels
  | clear => none

end Lesson

/-- The accepted batches since a model last forgot. -/
def accepted (lessons : List (Lesson K)) : List (List (K × K)) :=
  (lessons.rtakeWhile fun lesson => !lesson.isClear).filterMap Lesson.accepted?

theorem accepted_concat_clear (lessons : List (Lesson K)) : accepted (lessons ++ [.clear]) = [] := by
  unfold accepted
  rw [List.rtakeWhile_concat_neg _ _ _ Bool.false_ne_true]
  rfl

theorem accepted_concat_batch (lessons : List (Lesson K)) (features labels : List (Item K)) :
    accepted (lessons ++ [.batch features labels]) = accepted lessons ++ (observations? features labels).toList := by
  unfold accepted
  rw [List.rtakeWhile_concat_pos _ _ _ rfl, List.filterMap_append]
  congr 1

namespace Model

variable {features labels : List (Item K)} {batch : List (K × K)}

theorem observations?_eq_some : observations? features labels = some batch ↔
    ∃ xs ys, Item.flatten features = .ok xs ∧ Item.flatten labels = .ok ys ∧ refusal? xs ys = none ∧
      xs.zip ys = batch := by
  unfold observations?
  constructor
  · intro h
    split at h
    · next xs ys hxs hys =>
      rw [Option.ite_none_right_eq_some] at h
      exact ⟨xs, ys, hxs, hys, refusal?_eq_none.mpr h.1, Option.some.inj h.2⟩
    · cases h
  · rintro ⟨xs, ys, hxs, hys, hrefusal, rfl⟩
    rw [hxs, hys]
    exact if_pos (refusal?_eq_none.mp hrefusal)

omit [Scalar K] in
theorem refusesBatch_of_flatten {items : List (Item K)} {e : Error} (h : Item.flatten items = .error e) :
    e.refusesBatch = true := by
  unfold Item.flatten at h
  split at h
  · cases h
  · split at h
    · cases h
    · cases h
      rfl

theorem refusesBatch_of_refusal {xs ys : List K} {e : Error} (h : refusal? xs ys = some e) : e.refusesBatch = true := by
  unfold refusal? at h
  split at h
  · cases h
    rfl
  · split at h
    · cases h
      rfl
    · split at h
      · cases h
      · cases h
        rfl

theorem finite_of_observations? (h : observations? features labels = some batch) : FiniteNumbers batch := by
  obtain ⟨xs, ys, -, -, hrefusal, rfl⟩ := observations?_eq_some.mp h
  intro p hp
  obtain ⟨-, -, hxs, hys⟩ := refusal?_eq_none.mp hrefusal
  obtain ⟨hx, hy⟩ := List.of_mem_zip hp
  exact ⟨hxs _ hx, hys _ hy⟩

omit [Scalar K] in
theorem flatten_numbers (xs : List K) : Item.flatten (xs.map Item.number) = .ok xs := by
  have hflat (xs : List K) : (xs.map Item.number).flatMap Item.numbers = xs := by
    induction xs with
    | nil => rfl
    | cons x rest ih => exact congrArg (x :: ·) ih
  cases xs with
  | nil => rfl
  | cons x rest =>
    show (if _ then Except.ok _ else _) = _
    rw [if_pos (by simp [Item.width?])]
    exact congrArg Except.ok (hflat (x :: rest))

/-- Observations that are given one by one are accepted if they are finite numbers. -/
theorem observations?_numbers (hne : batch ≠ []) (hfinite : FiniteNumbers batch) :
    observations? ((batch.map Prod.fst).map .number) ((batch.map Prod.snd).map .number) = some batch := by
  refine observations?_eq_some.mpr ⟨_, _, flatten_numbers _, flatten_numbers _, refusal?_eq_none.mpr ?_,
    List.zip_of_prod rfl rfl |>.symm⟩
  refine ⟨by simpa using hne, by simp, ?_, ?_⟩
  · exact List.forall_mem_map.mpr fun p hp => (hfinite p hp).1
  · exact List.forall_mem_map.mpr fun p hp => (hfinite p hp).2

/-! ## One lesson -/

variable {m m' : Model K}

theorem learnItems_of_ne_inert (h : m.estimator ≠ .inert) : m.learnItems features labels =
    match Item.flatten features, Item.flatten labels with
    | .ok xs, .ok ys => m.learn xs ys
    | .error e, _ => (.error e, m)
    | _, .error e => (.error e, m) := by
  unfold learnItems
  cases hestimator : m.estimator with
  | inert => exact absurd hestimator h
  | _ => cases Item.flatten features <;> cases Item.flatten labels <;> rfl

/-- A batch that cannot be accepted changes nothing. -/
theorem learnItems_of_none (h : m.estimator ≠ .inert) (hnone : observations? features labels = none) :
    ∃ e : Error, e.refusesBatch = true ∧ m.learnItems features labels = (.error e, m) := by
  rw [learnItems_of_ne_inert h]
  cases hxs : Item.flatten features with
  | error e => exact ⟨e, refusesBatch_of_flatten hxs, rfl⟩
  | ok xs =>
    cases hys : Item.flatten labels with
    | error e => exact ⟨e, refusesBatch_of_flatten hys, rfl⟩
    | ok ys =>
      cases hrefusal : refusal? xs ys with
      | none => cases hnone.symm.trans (observations?_eq_some.mpr ⟨xs, ys, hxs, hys, hrefusal, rfl⟩)
      | some e =>
        refine ⟨e, refusesBatch_of_refusal hrefusal, ?_⟩
        dsimp only
        rw [learn_of_ne_inert h, hrefusal]

/-- A batch that can be accepted is retained, and the line is fitted again. -/
theorem learnItems_of_some (h : m.estimator ≠ .inert) (hsome : observations? features labels = some batch) :
    m.learnItems features labels = (m.retain batch).refit := by
  obtain ⟨xs, ys, hxs, hys, hrefusal, rfl⟩ := observations?_eq_some.mp hsome
  rw [learnItems_of_ne_inert h, hxs, hys]
  dsimp only
  rw [learn_of_ne_inert h, hrefusal]

/-- The answer to a lesson and the model after it. -/
def take (m : Model K) : Lesson K → Except Error Unit × Model K
  | .batch features labels => m.learnItems features labels
  | .clear => (.ok (), m.clear)

/-- The model after lessons one after another. -/
def after (m : Model K) (lessons : List (Lesson K)) : Model K := lessons.foldl (fun m lesson => (m.take lesson).2) m

theorem after_concat (m : Model K) (lessons : List (Lesson K)) (lesson : Lesson K) :
    m.after (lessons ++ [lesson]) = ((m.after lessons).take lesson).2 := List.foldl_concat _ _ _ _

/-! ## Lessons one after another -/

/-- What there is to retain of batches: all of them, or the last. -/
def retained (clearOnLearn : Bool) (batches : List (List (K × K))) : List (K × K) :=
  if clearOnLearn then batches.getLast?.getD [] else batches.flatten

omit [Scalar K] in
theorem retain_points_of_retained {batches : List (List (K × K))} (h : m.points = retained m.clearOnLearn batches)
    (batch : List (K × K)) : (m.retain batch).points = retained m.clearOnLearn (batches ++ [batch]) := by
  unfold retain retained at *
  cases hclear : m.clearOnLearn with
  | true => simp
  | false => simp [h, hclear]

/-- A model that retains what there is to retain of lessons, with the fit of that if there is one. -/
structure Taught (e : Estimator K) (online clearOnLearn : Bool) (lessons : List (Lesson K)) (m : Model K) : Prop where
  estimator : m.estimator = e
  online : m.online = online
  clears : m.clearOnLearn = clearOnLearn
  points : m.points = retained clearOnLearn (accepted lessons)
  finite : FiniteNumbers m.points
  fit : ∀ fit, fitOf e m.points = .ok fit → m.fit = fit

namespace Taught

variable {e : Estimator K} {online clearOnLearn : Bool} {lessons : List (Lesson K)}

theorem fresh (e : Estimator K) (online clearOnLearn : Bool) :
    (fresh e online clearOnLearn).Taught e online clearOnLearn [] where
  estimator := rfl
  online := rfl
  clears := rfl
  points := by cases clearOnLearn <;> rfl
  finite := nofun
  fit _ h := Except.ok.inj h

theorem clear (h : m.Taught e online clearOnLearn lessons) :
    m.clear.Taught e online clearOnLearn (lessons ++ [.clear]) where
  estimator := h.estimator
  online := h.online
  clears := h.clears
  points := by
    rw [accepted_concat_clear]
    cases clearOnLearn <;> rfl
  finite := nofun
  fit _ h := Except.ok.inj h

/-- An accepted batch is retained. If the new line is not found, the fit is the one from before. -/
theorem learn_some (he : e ≠ .inert) (h : m.Taught e online clearOnLearn lessons)
    (hsome : observations? features labels = some batch) :
    (m.learnItems features labels).2.Taught e online clearOnLearn (lessons ++ [.batch features labels]) := by
  obtain ⟨rfl, rfl, rfl, hpoints, hfinite, -⟩ := h
  have hretained : (m.retain batch).points =
      retained m.clearOnLearn (accepted (lessons ++ [.batch features labels])) := by
    rw [accepted_concat_batch, hsome]
    exact retain_points_of_retained hpoints batch
  have hfinite' : FiniteNumbers (m.retain batch).points := by
    intro p hp
    unfold retain at hp
    dsimp only at hp
    split at hp
    · exact finite_of_observations? hsome p hp
    · rcases List.mem_append.mp hp with hp | hp
      · exact hfinite p hp
      · exact finite_of_observations? hsome p hp
  rw [learnItems_of_some he hsome, refit_eq]
  split
  · next fit hfit => exact ⟨rfl, rfl, rfl, hretained, hfinite', fun _ h => Except.ok.inj (hfit.symm.trans h)⟩
  · next error herror =>
    refine ⟨rfl, rfl, rfl, hretained, hfinite', fun _ h => ?_⟩
    cases herror.symm.trans h

/-- It is learned if the new line is found. -/
theorem learn_eq_ok (he : e ≠ .inert) (h : m.Taught e online clearOnLearn lessons)
    (hsome : observations? features labels = some batch) (hfinds : e.Finds (m.retain batch).points) :
    (m.learnItems features labels).1 = .ok () := by
  obtain ⟨rfl, -⟩ := h
  obtain ⟨fit, hfit⟩ := exists_fitOf.mpr hfinds
  rw [learnItems_of_some he hsome, refit_eq_ok.mpr ⟨fit, hfit, rfl⟩]

/-- A refused batch leaves the model as it was. -/
theorem learn_none (he : e ≠ .inert) (h : m.Taught e online clearOnLearn lessons)
    (hnone : observations? features labels = none) : ∃ error : Error, error.refusesBatch = true ∧
      m.learnItems features labels = (.error error, m) ∧
      m.Taught e online clearOnLearn (lessons ++ [.batch features labels]) := by
  obtain ⟨error, hrefuses, heq⟩ := learnItems_of_none (h.estimator ▸ he) hnone
  refine ⟨error, hrefuses, heq, { h with points := ?_ }⟩
  rw [h.points, accepted_concat_batch, hnone]
  exact congrArg _ (List.append_nil _).symm

theorem take (he : e ≠ .inert) (h : m.Taught e online clearOnLearn lessons) (lesson : Lesson K) :
    (m.take lesson).2.Taught e online clearOnLearn (lessons ++ [lesson]) := by
  cases lesson with
  | clear => exact h.clear
  | batch features labels =>
    show (m.learnItems features labels).2.Taught e online clearOnLearn _
    cases hbatch : observations? features labels with
    | some batch => exact h.learn_some he hbatch
    | none =>
      obtain ⟨error, -, heq, hafter⟩ := h.learn_none he hbatch
      rw [heq]
      exact hafter

theorem after (he : e ≠ .inert) (online clearOnLearn : Bool) (lessons : List (Lesson K)) :
    ((Model.fresh e online clearOnLearn).after lessons).Taught e online clearOnLearn lessons := by
  induction lessons using List.reverseRecOn with
  | nil => exact .fresh e online clearOnLearn
  | append_singleton lessons lesson ih =>
    rw [after_concat]
    exact ih.take he lesson

theorem fitOf_eq (h : m.Taught e online clearOnLearn lessons) (hfinds : e.Finds m.points) :
    fitOf e m.points = .ok m.fit := by
  obtain ⟨fit, hfit⟩ := exists_fitOf.mpr hfinds
  rw [h.fit fit hfit, hfit]

/-- There is a fit of two observations or more. -/
theorem fit_eq_none (h : m.Taught e online clearOnLearn lessons) (hfinds : e.Finds m.points) :
    m.fit = none ↔ m.points.length < 2 := by
  have hfit := h.fitOf_eq hfinds
  unfold fitOf at hfit
  split at hfit
  · next hshort => exact ⟨fun _ => hshort, fun _ => (Except.ok.inj hfit).symm⟩
  · next hlong =>
    obtain ⟨line, -, hline⟩ := Except.map_eq_ok.mp hfit
    refine ⟨fun hnone => ?_, fun hshort => absurd hshort hlong⟩
    cases hline.trans hnone

/-- A fresh model that learns all that is retained at once has the same fit. -/
theorem learn_whole (he : e ≠ .inert) (h : m.Taught e online clearOnLearn lessons) (hfinds : e.Finds m.points)
    (hne : m.points ≠ []) (online' clearOnLearn' : Bool) : ∃ whole,
      (Model.fresh e online' clearOnLearn').learnItems ((m.points.map Prod.fst).map .number)
        ((m.points.map Prod.snd).map .number) = (.ok (), whole) ∧ whole.points = m.points ∧ whole.fit = m.fit := by
  have hsome := observations?_numbers hne h.finite
  generalize (m.points.map Prod.fst).map Item.number = features at hsome ⊢
  generalize (m.points.map Prod.snd).map Item.number = labels at hsome ⊢
  have hretain : ((Model.fresh e online' clearOnLearn').retain m.points).points = m.points := by
    unfold retain
    split <;> rfl
  have hlearn := (Taught.fresh e online' clearOnLearn').learn_eq_ok he hsome (hretain.symm ▸ hfinds)
  have hwhole := (Taught.fresh e online' clearOnLearn').learn_some he hsome
  have hpoints : ((Model.fresh e online' clearOnLearn').learnItems features labels).2.points = m.points := by
    rw [hwhole.points, accepted_concat_batch, hsome]
    cases clearOnLearn' <;> simp [retained, accepted]
  exact ⟨_, Prod.ext hlearn rfl, hpoints, hwhole.fit _ (hpoints ▸ h.fitOf_eq hfinds)⟩

end Taught

/-! ## Predictions -/

theorem predictX_eq_noFit {y : K} : m.predictX y = .error .noFit ↔ m.fit = none := by
  unfold predictX
  split
  · next f hf =>
    have hcrossing : f.crossing y ≠ .error .noFit := by
      unfold Fit.crossing
      dsimp only
      split
      · nofun
      · split <;> nofun
    simp [hf, hcrossing]
  · next hnone => simp [hnone]

theorem predictY_eq_noFit {x : K} : m.predictY x = .error .noFit ↔ m.fit = none := by
  unfold predictY
  split
  · next f hf => simp [hf]
  · next hnone => simp [hnone]

/-! ## The whole course -/

/-- Whatever a model was taught, batch by batch, it retains the accepted batches since it last forgot, or the last of
them. If its estimator finds a line of that, it has the fit of a fresh model that learns these at once. -/
theorem lessons_make_one_batch {e : Estimator K} (he : e ≠ .inert) (online clearOnLearn : Bool)
    (lessons : List (Lesson K)) :
    let m := (fresh e online clearOnLearn).after lessons
    m.points = (if clearOnLearn then (accepted lessons).getLast?.getD [] else (accepted lessons).flatten) ∧
      (e.Finds m.points → (m.fit = none ↔ m.points.length < 2) ∧
        (m.points ≠ [] → ∀ clearOnLearn' : Bool, ∃ whole,
          (fresh e online clearOnLearn').learnItems ((m.points.map Prod.fst).map .number)
            ((m.points.map Prod.snd).map .number) = (.ok (), whole) ∧ whole.points = m.points ∧ whole.fit = m.fit)) ∧
      (∀ features labels : List (Item K), match observations? features labels with
        | some batch => e.Finds (m.retain batch).points → (m.learnItems features labels).1 = .ok ()
        | none => ∃ error : Error, error.refusesBatch = true ∧ m.learnItems features labels = (.error error, m)) ∧
      (∀ y, m.predictX y = .error .noFit ↔ m.fit = none) ∧ (∀ x, m.predictY x = .error .noFit ↔ m.fit = none) ∧
      (m.scores? = none ↔ m.fit = none) := by
  intro m
  have htaught : m.Taught e online clearOnLearn lessons := .after he online clearOnLearn lessons
  refine ⟨htaught.points, fun hfinds => ⟨htaught.fit_eq_none hfinds, fun hne clearOnLearn' =>
    htaught.learn_whole he hfinds hne online clearOnLearn'⟩, fun features labels => ?_, fun _ => predictX_eq_noFit,
    fun _ => predictY_eq_noFit, Option.map_eq_none_iff⟩
  split
  · next batch hsome => exact htaught.learn_eq_ok he hsome
  · next hnone =>
    obtain ⟨error, hrefuses, heq, -⟩ := htaught.learn_none he hnone
    exact ⟨error, hrefuses, heq⟩

/-- A ridge line that keeps the last batch only is taught a batch, an unequal one, one of a single observation and a
batch after that. -/
theorem ridge_lessons_make_one_batch :
    let course : List (Lesson Float) := [.batch [.number 0, .number 1] [.number 1, .number 2],
      .batch [.number 5] [.number 6, .number 7], .batch [.row [3]] [.number 4], .batch [.row [1], .row [2]]
      [.number 3, .number 5]]
    let m := (fresh (.ridge Scalar.one) true true).after course
    m.points = [(1, 3), (2, 5)] ∧ m.fit.isSome = true ∧
      ∃ whole, (fresh (.ridge Scalar.one) true false).learnItems [.number 1, .number 2] [.number 3, .number 5] =
        (.ok (), whole) ∧ whole.fit = m.fit := by
  intro course m
  have he : Estimator.ridge (Scalar.one : Float) ≠ .inert := nofun
  have hpoints : m.points = [(1, 3), (2, 5)] := by decide +kernel
  have hfinds : (Estimator.ridge (Scalar.one : Float)).Finds m.points := by
    rw [hpoints]
    intro _
    have hok : (estimate (.ridge (Scalar.one : Float)) [(1, 3), (2, 5)]).isOk = true := by decide +kernel
    cases hline : estimate (.ridge (Scalar.one : Float)) [(1, 3), (2, 5)] with
    | ok line => exact ⟨line, rfl⟩
    | error error =>
      rw [hline] at hok
      cases hok
  obtain ⟨-, hfits, -⟩ := lessons_make_one_batch he true true course
  obtain ⟨hnone, hwhole⟩ := hfits hfinds
  change m.fit = none ↔ m.points.length < 2 at hnone
  have hne : m.points ≠ [] := by
    rw [hpoints]
    nofun
  obtain ⟨whole, hlearn, -, hfit⟩ := hwhole hne false
  change (fresh (.ridge Scalar.one) true false).learnItems ((m.points.map Prod.fst).map .number)
    ((m.points.map Prod.snd).map .number) = (.ok (), whole) at hlearn
  rw [hpoints] at hlearn hnone
  exact ⟨hpoints, Option.isSome_iff_ne_none.mpr fun h => absurd (hnone.mp h) (by decide), whole, hlearn, hfit⟩

end Model

end Trend

end Backpressure
