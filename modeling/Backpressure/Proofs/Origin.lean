import Mathlib.Tactic.FieldSimp
import Mathlib.Tactic.Ring
import Backpressure.Proofs.Lessons
import Backpressure.Proofs.Optimum

/-!
# Observations in another order and from another origin

* `Fit.ofLine_perm` : the fit of a line of least squares does not depend on the order of the observations;
* `moved`, `Line.moved`, `Fit.moved` : observations, lines and fits with all places moved, `Fit.ofLine_moved` : the fit of
  moved observations is the moved fit;
* `Lesson.moved`, `accepted_moved` : lessons with all features moved, of which the same batches are accepted;
* `Model.fit_after` : the fit of a model that was taught lessons, `Model.fit_after_moved` : that of moved ones;
* `Model.fit_is_of_observations` : which observations a model has learned determines its fit, and where they are counted
  from is not seen in its predictions.
-/

namespace Backpressure.Trend
open Number

variable {K : Type} [LinearOrder K] [ExactScalar K] {penalty : K} {points points' : List (K × K)} {xs ys : List K}

/-! ## Another order -/

theorem mean_perm (h : xs.Perm ys) : Arithmetic.mean xs = Arithmetic.mean ys := by
  rw [Arithmetic.mean_eq, Arithmetic.mean_eq, h.sum_eq, h.length_eq]

theorem spread_perm (h : xs.Perm ys) : spread xs = spread ys := by
  unfold spread
  rw [mean_perm h]
  exact (h.map _).sum_eq

theorem isConstant_perm (h : xs.Perm ys) : isConstant xs = isConstant ys := by
  rw [Bool.eq_iff_iff, isConstant_iff, isConstant_iff]
  simp only [h.mem_iff]

theorem codeviation_perm (h : points.Perm points') : codeviation points = codeviation points' := by
  unfold codeviation
  rw [mean_perm (h.map Prod.fst), mean_perm (h.map Prod.snd)]
  exact (h.map _).sum_eq

theorem Line.leastSquares_perm (h : points.Perm points') :
    leastSquares penalty points = leastSquares penalty points' := by
  rw [leastSquares_eq, leastSquares_eq, spread_perm (h.map Prod.fst), codeviation_perm h, mean_perm (h.map Prod.fst),
    mean_perm (h.map Prod.snd)]

theorem Line.squaredError_perm (h : points.Perm points') (l : Line K) :
    l.squaredError points = l.squaredError points' := (h.map _).sum_eq

/-- The fit of a line of least squares does not depend on the order of the observations. -/
theorem Fit.ofLine_perm (h : points.Perm points') :
    ofLine (Line.leastSquares penalty points) points = ofLine (Line.leastSquares penalty points') points' := by
  rw [ofLine_leastSquares, ofLine_leastSquares, Line.leastSquares_perm h, Line.squaredError_perm h,
    spread_perm (h.map Prod.snd), isConstant_perm (h.map Prod.fst), h.length_eq]

/-! ## Another origin -/

/-- Observations with all places moved. -/
def moved (c : K) (points : List (K × K)) : List (K × K) := points.map fun p => (p.1 + c, p.2)

theorem map_fst_moved (c : K) (points : List (K × K)) : (moved c points).map Prod.fst = (points.map Prod.fst).map (· + c) := by
  simp [moved]

theorem map_snd_moved (c : K) (points : List (K × K)) : (moved c points).map Prod.snd = points.map Prod.snd := by
  simp [moved]

theorem mean_moved (c : K) (hne : xs ≠ []) : Arithmetic.mean (xs.map (· + c)) = Arithmetic.mean xs + c := by
  have hlength : (xs.length : K) ≠ 0 := by exact_mod_cast (List.length_pos_iff.mpr hne).ne'
  rw [Arithmetic.mean_eq, Arithmetic.mean_eq, List.sum_map_add, List.map_id', List.map_const', List.sum_replicate,
    nsmul_eq_mul, List.length_map, add_div, mul_div_cancel_left₀ _ hlength]

theorem spread_moved (c : K) (xs : List K) : spread (xs.map (· + c)) = spread xs := by
  rcases eq_or_ne xs [] with rfl | hne
  · rfl
  · unfold spread
    rw [mean_moved c hne, List.map_map]
    refine congrArg List.sum (List.map_congr_left fun x _ => ?_)
    dsimp only [Function.comp]
    ring

theorem isConstant_moved (c : K) (xs : List K) : isConstant (xs.map (· + c)) = isConstant xs := by
  rw [Bool.eq_iff_iff, isConstant_iff, isConstant_iff]
  simp only [List.forall_mem_map, add_left_inj]

theorem codeviation_moved (c : K) (points : List (K × K)) : codeviation (moved c points) = codeviation points := by
  rcases eq_or_ne points [] with rfl | hne
  · rfl
  · unfold codeviation
    rw [map_fst_moved, map_snd_moved, mean_moved c (by simpa using hne)]
    unfold moved
    rw [List.map_map]
    refine congrArg List.sum (List.map_congr_left fun p _ => ?_)
    dsimp only [Function.comp]
    ring

namespace Line

/-- The line with all places moved. -/
def moved (c : K) (l : Line K) : Line K := ⟨l.slope, l.intercept - l.slope * c⟩

theorem height_moved (c : K) (l : Line K) (x : K) : (l.moved c).height (x + c) = l.height x := by
  unfold moved height
  ring

theorem leastSquares_moved (c : K) (hne : points ≠ []) :
    leastSquares penalty (Trend.moved c points) = (leastSquares penalty points).moved c := by
  rw [leastSquares_eq, leastSquares_eq, map_fst_moved, map_snd_moved, spread_moved, codeviation_moved,
    mean_moved c (by simpa using hne)]
  unfold moved
  dsimp only
  congr 1
  ring

theorem squaredError_moved (c : K) (l : Line K) (points : List (K × K)) :
    (l.moved c).squaredError (Trend.moved c points) = l.squaredError points := by
  unfold squaredError Trend.moved
  rw [List.map_map]
  refine congrArg List.sum (List.map_congr_left fun p _ => ?_)
  dsimp only [Function.comp]
  rw [height_moved]

end Line

namespace Fit

/-- The fit with all places moved: all but the intercept is the same. -/
def moved (c : K) (f : Fit K) : Fit K := { f with line := f.line.moved c }

theorem ofLine_moved (c : K) (hne : points ≠ []) :
    ofLine (Line.leastSquares penalty (Trend.moved c points)) (Trend.moved c points) =
      (ofLine (Line.leastSquares penalty points) points).moved c := by
  rw [ofLine_leastSquares, ofLine_leastSquares, Line.leastSquares_moved c hne, Line.squaredError_moved, map_fst_moved,
    map_snd_moved, isConstant_moved]
  unfold Trend.moved
  rw [List.length_map]
  rfl

/-- The line reaches a height at the moved place, or at none in both cases. -/
theorem crossing_moved (c : K) (f : Fit K) (y : K) : (f.moved c).crossing y = (f.crossing y).map (· + c) := by
  unfold crossing moved Line.moved
  dsimp only
  split
  · rfl
  · next hproper =>
    simp only [Bool.or_eq_true, not_or, eq_exact, zero_exact] at hproper
    rw [isFinite_exact, isFinite_exact, if_pos rfl, if_pos rfl]
    refine congrArg Except.ok ?_
    have hslope := hproper.1.2
    field_simp
    ring

end Fit

/-! ## Lessons from another origin -/

/-- An item with each of its numbers replaced. -/
def Item.map {L : Type} (g : K → L) : Item K → Item L
  | number x => .number (g x)
  | row xs => .row (xs.map g)

omit [LinearOrder K] [ExactScalar K] in
theorem Item.width?_map (g : K → K) (item : Item K) : (item.map g).width? = item.width? := by
  cases item with
  | number x => rfl
  | row xs => exact congrArg some (List.length_map _)

omit [LinearOrder K] [ExactScalar K] in
theorem Item.numbers_map (g : K → K) (item : Item K) : (item.map g).numbers = item.numbers.map g := by
  cases item <;> rfl

omit [LinearOrder K] [ExactScalar K] in
theorem Item.flatten_map (g : K → K) (items : List (Item K)) :
    flatten (items.map (Item.map g)) = (flatten items).map (List.map g) := by
  cases items with
  | nil => rfl
  | cons item rest =>
    have hwidths : ((rest.map (Item.map g)).all fun other => other.width? == (item.map g).width?) =
        rest.all fun other => other.width? == item.width? := by
      rw [List.all_map]
      simp only [Function.comp_def, width?_map]
    have hnumbers : ((item :: rest).map (Item.map g)).flatMap numbers = ((item :: rest).flatMap numbers).map g := by
      rw [List.flatMap_map, List.map_flatMap]
      simp only [numbers_map]
    show (if _ then Except.ok (((item :: rest).map (Item.map g)).flatMap numbers) else _) =
      (if _ then Except.ok ((item :: rest).flatMap numbers) else _).map (List.map g)
    rw [hwidths, hnumbers, List.length_map]
    split <;> rfl

/-- A lesson with all features moved. -/
def Lesson.moved (c : K) : Lesson K → Lesson K
  | batch features labels => .batch (features.map (Item.map (· + c))) labels
  | clear => .clear

theorem observations?_moved (c : K) (features labels : List (Item K)) :
    observations? (features.map (Item.map (· + c))) labels = (observations? features labels).map (moved c) := by
  unfold observations?
  rw [Item.flatten_map]
  cases Item.flatten features with
  | error e => rfl
  | ok xs =>
    cases Item.flatten labels with
    | error e => rfl
    | ok ys =>
      dsimp only [Except.map]
      simp only [isFinite_exact, implies_true, and_true, ne_eq, List.map_eq_nil_iff, List.length_map]
      split
      · exact congrArg some (List.zip_map_left ..)
      · rfl

theorem accepted_moved (c : K) (lessons : List (Lesson K)) :
    accepted (lessons.map (Lesson.moved c)) = (accepted lessons).map (moved c) := by
  induction lessons using List.reverseRecOn with
  | nil => rfl
  | append_singleton lessons lesson ih =>
    rw [List.map_append, List.map_singleton]
    cases lesson with
    | clear => rw [Lesson.moved, accepted_concat_clear, accepted_concat_clear, List.map_nil]
    | batch features labels =>
      rw [Lesson.moved, accepted_concat_batch, accepted_concat_batch, ih, observations?_moved, List.map_append]
      cases observations? features labels <;> rfl

theorem retained_moved (c : K) (clearOnLearn : Bool) (batches : List (List (K × K))) :
    Model.retained clearOnLearn (batches.map (moved c)) = moved c (Model.retained clearOnLearn batches) := by
  unfold Model.retained
  cases clearOnLearn with
  | false => exact List.map_flatten.symm
  | true =>
    rw [List.getLast?_map]
    cases batches.getLast? <;> rfl

/-! ## Models that were taught -/

theorem Estimator.Penalises.finds {e : Estimator K} (h : e.Penalises penalty) (points : List (K × K)) :
    e.Finds points := fun _ => ⟨_, h.estimate_eq points⟩

namespace Model

/-- A model that was taught lessons has the fit of what there is to retain of them. -/
theorem fit_after {e : Estimator K} (h : e.Penalises penalty) (online clearOnLearn : Bool) (lessons : List (Lesson K)) :
    ((fresh e online clearOnLearn).after lessons).fit =
      if (retained clearOnLearn (accepted lessons)).length < 2 then none
      else some (Fit.ofLine (Line.leastSquares penalty (retained clearOnLearn (accepted lessons)))
        (retained clearOnLearn (accepted lessons))) := by
  have htaught : ((fresh e online clearOnLearn).after lessons).Taught e online clearOnLearn lessons :=
    .after h.ne_inert online clearOnLearn lessons
  have hfit := htaught.fitOf_eq (h.finds _)
  rw [fitOf_of_penalises h, htaught.points] at hfit
  exact (Except.ok.inj hfit).symm

theorem fit_after_moved {e : Estimator K} (h : e.Penalises penalty) (online clearOnLearn : Bool)
    (lessons : List (Lesson K)) (c : K) :
    ((fresh e online clearOnLearn).after (lessons.map (Lesson.moved c))).fit =
      ((fresh e online clearOnLearn).after lessons).fit.map (Fit.moved c) := by
  rw [fit_after h, fit_after h, accepted_moved, retained_moved]
  generalize retained clearOnLearn (accepted lessons) = points
  rw [show (moved c points).length = points.length from List.length_map _]
  split
  · rfl
  · next hmany =>
    have hne : points ≠ [] := List.length_pos_iff.mp (by omega)
    exact congrArg some (Fit.ofLine_moved c hne)

theorem predictY_moved {m m' : Model K} {c : K} (h : m'.fit = m.fit.map (Fit.moved c)) (x : K) :
    m'.predictY (x + c) = m.predictY x := by
  unfold predictY
  rw [h]
  cases m.fit with
  | none => rfl
  | some f => exact congrArg Except.ok (Line.height_moved c f.line x)

theorem predictX_moved {m m' : Model K} {c : K} (h : m'.fit = m.fit.map (Fit.moved c)) (y : K) :
    m'.predictX y = (m.predictX y).map (· + c) := by
  unfold predictX
  rw [h]
  cases m.fit with
  | none => rfl
  | some f => exact Fit.crossing_moved c f y

/-- A model that accumulates has the same fit for the same observations, in whatever order and batches it has learned
them. Where all features are moved, so is its line and what it predicts, and all else of its fit is the same. -/
theorem fit_is_of_observations {e : Estimator Rat} {penalty : Rat} (h : e.Penalises penalty) (online : Bool)
    (lessons : List (Lesson Rat)) :
    (∀ lessons', (accepted lessons).flatten.Perm (accepted lessons').flatten →
      ((fresh e online false).after lessons).fit = ((fresh e online false).after lessons').fit) ∧
    ∀ (clearOnLearn : Bool) (c : Rat),
      let m := (fresh e online clearOnLearn).after lessons
      let m' := (fresh e online clearOnLearn).after (lessons.map (Lesson.moved c))
      m'.fit = m.fit.map (fun f => { f with line := ⟨f.line.slope, f.line.intercept - f.line.slope * c⟩ }) ∧
        (∀ x, m'.predictY (x + c) = m.predictY x) ∧ ∀ y, m'.predictX y = (m.predictX y).map (· + c) := by
  refine ⟨fun lessons' hperm => ?_, fun clearOnLearn c => ?_⟩
  · rw [fit_after h, fit_after h]
    change (if (accepted lessons).flatten.length < 2 then none else some (Fit.ofLine (Line.leastSquares penalty
        (accepted lessons).flatten) (accepted lessons).flatten)) =
      if (accepted lessons').flatten.length < 2 then none else some (Fit.ofLine (Line.leastSquares penalty
        (accepted lessons').flatten) (accepted lessons').flatten)
    rw [hperm.length_eq, Fit.ofLine_perm hperm]
  · have hfit := fit_after_moved h online clearOnLearn lessons c
    exact ⟨hfit, predictY_moved hfit, predictX_moved hfit⟩

/-- A ridge line is taught four observations, with a batch among them that is refused, and the same in another order.
Counted from a place five before, its crossing with 10 lies five later. -/
theorem ridge_fit_is_of_observations :
    let lessons : List (Lesson Rat) := [.batch [.number 0, .number 1] [.number 1, .number 3],
      .batch [.number 5] [.number 6, .number 7], .batch [.row [2], .row [3]] [.number 2, .number 4]]
    let lessons' : List (Lesson Rat) := [.batch [.number 3, .number 2, .number 1] [.number 4, .number 2, .number 3],
      .batch [.number 0] [.number 1]]
    ((fresh (.ridge 1) true false).after lessons).fit = ((fresh (.ridge 1) true false).after lessons').fit ∧
      ((fresh (.ridge 1) true false).after lessons).predictX 10 = .ok (51 / 4) ∧
      ((fresh (.ridge 1) true false).after (lessons.map (Lesson.moved 5))).predictX 10 = .ok (51 / 4 + 5) := by
  intro lessons lessons'
  have hpenalty : (Estimator.ridge (1 : Rat)).Penalises 1 := .ridge (by decide)
  obtain ⟨hsame, hmoved⟩ := fit_is_of_observations hpenalty true lessons
  obtain ⟨-, -, hcrossing⟩ := hmoved false 5
  have hten : ((fresh (.ridge (1 : Rat)) true false).after lessons).predictX 10 = .ok (51 / 4) := by decide +kernel
  refine ⟨hsame lessons' (by decide +kernel), hten, ?_⟩
  rw [hcrossing, hten]
  rfl

end Model

end Backpressure.Trend
