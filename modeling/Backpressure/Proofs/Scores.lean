import Mathlib.Analysis.Real.Sqrt
import Backpressure.Proofs.Optimum

/-!
# The ranges of the scores

* the instance of `ℝ` : forecasts with exact arithmetic in which square roots are exact too;
* `Line.squaredError_leastSquares_le` : no line of least squares is worse than the horizontal one at the mean,
  `Line.squaredError_eq_zero` : a line has no error if the observations lie on it;
* `Level` : observations of one height, `spread_pos` : all others vary, `Fit.rSquared_range` : their R² for a line of least
  squares;
* `Fit.Graded` : which scores a fit has, and in which ranges they lie, `Fit.graded_leastSquares` : the fit of a line of
  least squares is so, `Fit.rSquared_eq_one` : when its R² is 1;
* `Model.learn_grades_line` : the fits that models keep are so, and the scores that are shown are the defined ones.
-/

namespace Backpressure
open Number Trend

/-! ## Real numbers as scalars -/

namespace Number

/-- The integer nearest to a real number, of two equally near the even one. -/
noncomputable def nearestEven (x : ℝ) : Int :=
  if Int.fract x < 1 / 2 then ⌊x⌋
  else if 1 / 2 < Int.fract x then ⌊x⌋ + 1
  else if ⌊x⌋ % 2 = 0 then ⌊x⌋
  else ⌊x⌋ + 1

/-- A real number with one digit after the point. -/
noncomputable def realTenths (x : ℝ) : String := tenthsText (mkRat (nearestEven (10 * x)) 10)

noncomputable instance : Arithmetic ℝ where
  ratio n d := (n : ℝ) / (d : ℝ)
  isZero x := decide (x = 0)

/-- Nothing is infinite here, and no operation rounds. A number has no text of all its digits. -/
noncomputable instance : Scalar ℝ where
  lt x y := decide (x < y)
  eq x y := decide (x = y)
  isFinite _ := true
  round := nearestEven
  sqrt := Real.sqrt
  text := realTenths
  tenths := realTenths
  leastSquares := Line.leastSquares

noncomputable instance : ExactScalar ℝ where
  __ := (inferInstance : Scalar ℝ)
  __ := (inferInstance : Field ℝ)
  __ := (inferInstance : IsStrictOrderedRing ℝ)
  ratio_eq _ _ := rfl
  isZero_iff _ := decide_eq_true_iff
  lt_iff _ _ := decide_eq_true_iff
  eq_iff _ _ := decide_eq_true_iff
  isFinite_eq _ := rfl
  leastSquares_eq _ _ := rfl

end Number

namespace Trend

variable {K : Type} [LinearOrder K] [ExactScalar K] {penalty : K} {points : List (K × K)}

/-! ## Errors against the variation of the heights -/

/-- The horizontal line at the mean height is among the lines that a line of least squares is not worse than. -/
theorem Line.squaredError_leastSquares_le (hpenalty : 0 ≤ penalty) (points : List (K × K)) :
    (leastSquares penalty points).squaredError points ≤ spread (points.map Prod.snd) := by
  have hle := leastSquares_loss_le hpenalty ⟨0, Arithmetic.mean (points.map Prod.snd)⟩ points
  have hhorizontal : (⟨0, Arithmetic.mean (points.map Prod.snd)⟩ : Line K).loss penalty points =
      spread (points.map Prod.snd) := by
    unfold loss
    rw [squaredError_eq]
    unfold height
    ring
  have hslope : 0 ≤ penalty * (leastSquares penalty points).slope ^ 2 := mul_nonneg hpenalty (sq_nonneg _)
  rw [hhorizontal] at hle
  unfold loss at hle
  linarith

theorem Line.squaredError_nonneg (l : Line K) (points : List (K × K)) : 0 ≤ l.squaredError points :=
  sum_squares_nonneg _ points

theorem Line.squaredError_eq_zero {l : Line K} : l.squaredError points = 0 ↔ ∀ p ∈ points, p.2 = l.height p.1 := by
  unfold squaredError
  rw [sum_squares_eq_zero]
  exact forall₂_congr fun p _ => sub_eq_zero

/-- Observations of one height. -/
def Level (points : List (K × K)) : Prop := ∀ p ∈ points, ∀ q ∈ points, p.2 = q.2

theorem spread_pos : 0 < spread (points.map Prod.snd) ↔ ¬ Level points := by
  rw [(spread_nonneg _).lt_iff_ne', ne_eq, spread_eq_zero, isConstant_iff]
  simp only [List.forall_mem_map]
  rfl

/-! ## Scores -/

namespace Fit

/-- The scores that a fit of observations has: R² unless all have one height, its adjusted value and the mean square
error from three observations on. -/
structure Graded (f : Fit K) (points : List (K × K)) : Prop where
  rSquared_eq_none : f.rSquared = none ↔ Level points
  rSquared_range : ∀ r, f.rSquared = some r → 0 ≤ r ∧ r ≤ 1
  adjusted_isSome : f.adjustedRSquared.isSome = true ↔ 2 < points.length ∧ ¬ Level points
  adjusted_le : ∀ r a, f.rSquared = some r → f.adjustedRSquared = some a → a ≤ r
  error_isSome : f.meanSquareError.isSome = true ↔ 2 < points.length
  error_eq : ∀ e, f.meanSquareError = some e → e = f.residualSumSquares / ((points.length : K) - 2) ∧ 0 ≤ e

theorem rSquared_leastSquares (penalty : K) (points : List (K × K)) :
    (ofLine (Line.leastSquares penalty points) points).rSquared =
      if 0 < spread (points.map Prod.snd) then
        some (1 - (Line.leastSquares penalty points).squaredError points / spread (points.map Prod.snd))
      else none := by
  rw [ofLine_leastSquares]

/-- Fewer degrees of freedom do not make a score better. -/
theorem adjusted_le {r n : K} (hr : r ≤ 1) (hn : 2 < n) : 1 - (1 - r) * (n - 1) / (n - 2) ≤ r := by
  have hle : 1 - r ≤ (1 - r) * (n - 1) / (n - 2) := by
    rw [le_div_iff₀ (by linarith)]
    exact mul_le_mul_of_nonneg_left (by linarith) (by linarith)
  linarith

theorem rSquared_range (hpenalty : 0 ≤ penalty) {r : K}
    (h : (ofLine (Line.leastSquares penalty points) points).rSquared = some r) : 0 ≤ r ∧ r ≤ 1 := by
  have hle := Line.squaredError_leastSquares_le hpenalty points
  have hnonneg := (Line.leastSquares penalty points).squaredError_nonneg points
  rw [rSquared_leastSquares, Option.ite_none_right_eq_some] at h
  obtain ⟨hpos, h⟩ := h
  cases h
  exact ⟨sub_nonneg.mpr (div_le_one_of_le₀ hle hpos.le), sub_le_self 1 (div_nonneg hnonneg hpos.le)⟩

theorem graded_leastSquares (hpenalty : 0 ≤ penalty) (points : List (K × K)) :
    (ofLine (Line.leastSquares penalty points) points).Graded points := by
  have hfreedom (hmany : 2 < points.length) : (2 : K) < points.length := by exact_mod_cast hmany
  refine ⟨?_, fun r => rSquared_range hpenalty, ?_, ?_, ?_, ?_⟩
  · rw [rSquared_leastSquares, ite_eq_right_iff, ← not_iff_not, ← spread_pos]
    simp
  · rw [ofLine_leastSquares, ← spread_pos]
    dsimp only
    split <;> simp [*]
  · intro r a hr ha
    have hone := (rSquared_range hpenalty hr).2
    rw [ofLine_leastSquares] at hr ha
    dsimp only at hr ha
    rw [hr, Option.ite_none_right_eq_some] at ha
    obtain ⟨hmany, ha⟩ := ha
    cases ha
    exact adjusted_le hone (hfreedom hmany)
  · rw [ofLine_leastSquares]
    dsimp only
    split <;> simp [*]
  · intro e he
    rw [ofLine_leastSquares] at he ⊢
    dsimp only at he ⊢
    rw [Option.ite_none_right_eq_some] at he
    obtain ⟨hmany, he⟩ := he
    cases he
    exact ⟨rfl, div_nonneg (Line.squaredError_nonneg _ points) (by linarith [hfreedom hmany])⟩

/-- Observations that are not level are explained in full if they lie on one line, which then is not horizontal. -/
theorem rSquared_eq_one {r : K} (hr : (ofLine (Line.leastSquares 0 points) points).rSquared = some r) :
    r = 1 ↔ ∃ l : Line K, l.slope ≠ 0 ∧ ∀ p ∈ points, p.2 = l.height p.1 := by
  rw [rSquared_leastSquares, Option.ite_none_right_eq_some] at hr
  obtain ⟨hpos, hr⟩ := hr
  cases hr
  have hone : 1 - (Line.leastSquares 0 points).squaredError points / spread (points.map Prod.snd) = 1 ↔
      (Line.leastSquares 0 points).squaredError points = 0 := by
    rw [sub_eq_self, div_eq_zero_iff, or_iff_left hpos.ne']
  rw [hone]
  constructor
  · intro hzero
    have hon := Line.squaredError_eq_zero.mp hzero
    refine ⟨_, fun hslope => spread_pos.mp hpos fun p hp q hq => ?_, hon⟩
    rw [hon p hp, hon q hq]
    unfold Line.height
    rw [hslope, zero_mul, zero_mul]
  · rintro ⟨l, -, hon⟩
    have hle := Line.leastSquares_loss_le le_rfl l points
    unfold Line.loss at hle
    rw [zero_mul, zero_mul, add_zero, add_zero, Line.squaredError_eq_zero.mpr hon] at hle
    exact le_antisymm hle (Line.squaredError_nonneg _ points)

/-- The mean square error has a root, which is not negative. -/
theorem Graded.root {f : Fit ℝ} {points : List (ℝ × ℝ)} (h : f.Graded points) :
    ∃ root, f.rootMeanSquareError = .ok root ∧ (root.isSome = true ↔ 2 < points.length) ∧
      ∀ r, root = some r → 0 ≤ r ∧ f.meanSquareError = some (r ^ 2) := by
  unfold rootMeanSquareError
  rw [← h.error_isSome]
  cases herror : f.meanSquareError with
  | none => exact ⟨none, rfl, Iff.rfl, nofun⟩
  | some e =>
    have hnonneg := (h.error_eq e herror).2
    have hnot : Scalar.lt e Scalar.zero = false := by
      rw [Bool.eq_false_iff, ne_eq, lt_exact, zero_exact]
      exact not_lt.mpr hnonneg
    dsimp only
    rw [hnot]
    refine ⟨some (Real.sqrt e), rfl, by simp, ?_⟩
    rintro _ ⟨⟩
    exact ⟨Real.sqrt_nonneg e, congrArg some (Real.sq_sqrt hnonneg).symm⟩

end Fit

/-- Each score that is defined is shown, and no other. -/
theorem Scores.ofFit_exact {f : Fit K} {root : Option K} (h : f.rootMeanSquareError = .ok root) :
    Scores.ofFit f =
      .ok ⟨f.rSquared, f.adjustedRSquared, root, some f.residualSumSquares, f.meanSquareError⟩ := by
  have hall (x : Option K) : x.filter Scalar.isFinite = x := by
    cases x with
    | none => rfl
    | some y => exact if_pos (isFinite_exact y)
  unfold Scores.ofFit
  rw [h]
  simp only [hall]
  rfl

/-- Whatever a model with an estimator of least squares learns, its fit has the scores that are defined for what it
retains, and these are the scores that are shown. -/
theorem Model.learn_grades_line {m : Model ℝ} {penalty : ℝ} (h : m.estimator.Penalises penalty) {xs ys : List ℝ}
    (hne : xs ≠ []) (hlength : xs.length = ys.length) (hmany : 2 ≤ (m.retain (xs.zip ys)).points.length) :
    ∃ after f, m.learn xs ys = (.ok (), after) ∧
      after.points = (if m.clearOnLearn then [] else m.points) ++ xs.zip ys ∧ after.fit = some f ∧
      f.Graded after.points ∧
      (m.estimator = .leastSquares → ∀ r, f.rSquared = some r →
        (r = 1 ↔ ∃ l : Line ℝ, l.slope ≠ 0 ∧ ∀ p ∈ after.points, p.2 = l.height p.1)) ∧
      ∃ root, f.rootMeanSquareError = .ok root ∧ (root.isSome = true ↔ 2 < after.points.length) ∧
        (∀ r, root = some r → 0 ≤ r ∧ f.meanSquareError = some (r ^ 2)) ∧
        (Scores.ofFit f).map Scores.toTable = .ok [("r_squared", f.rSquared),
          ("adjusted_r_squared", f.adjustedRSquared), ("rmse", root),
          ("residual_sum_squares", some f.residualSumSquares), ("mean_square_error", f.meanSquareError)] := by
  have hgraded := Fit.graded_leastSquares h.nonneg (m.retain (xs.zip ys)).points
  obtain ⟨root, hroot, hsome, hvalue⟩ := hgraded.root
  refine ⟨_, _, learn_of_penalises h hne hlength hmany, points_retain m _, rfl, hgraded, fun hlinear r hr => ?_, root,
    hroot, hsome, hvalue, ?_⟩
  · rw [hlinear] at h
    cases h
    exact Fit.rSquared_eq_one hr
  · rw [Scores.ofFit_exact hroot]
    rfl

/-- The line through four observations that rise unevenly explains them in part, and misses them by a mean error. -/
theorem Model.uneven_line_is_graded : ∃ after f r e,
    (fresh (.leastSquares : Estimator ℝ) true false).learn [0, 1, 2, 3] [1, 3, 2, 4] = (.ok (), after) ∧
      after.fit = some f ∧ f.rSquared = some r ∧ 0 ≤ r ∧ r ≤ 1 ∧ r ≠ 1 ∧
      f.rootMeanSquareError = .ok (some e) ∧ 0 ≤ e ∧ f.meanSquareError = some (e ^ 2) := by
  obtain ⟨after, f, hlearn, hpoints, hfit, hgraded, hone, root, hroot, hsome, hvalue, -⟩ := learn_grades_line
    (m := fresh .leastSquares true false) .leastSquares (show ([0, 1, 2, 3] : List ℝ) ≠ [] by simp)
    (show [0, 1, 2, 3].length = ([1, 3, 2, 4] : List ℝ).length from rfl) (by simp [retain, fresh])
  have hfour : after.points = [((0 : ℝ), (1 : ℝ)), (1, 3), (2, 2), (3, 4)] := hpoints
  rw [hfour] at hgraded hone hsome
  have hlevel : ¬ Level [((0 : ℝ), (1 : ℝ)), (1, 3), (2, 2), (3, 4)] := by
    intro h
    have := h (0, 1) (by simp) (1, 3) (by simp)
    norm_num at this
  obtain ⟨r, hr⟩ := Option.ne_none_iff_exists'.mp (mt hgraded.rSquared_eq_none.mp hlevel)
  obtain ⟨e, rfl⟩ := Option.isSome_iff_exists.mp (hsome.mpr (by simp))
  obtain ⟨hnonneg, hle⟩ := hgraded.rSquared_range r hr
  refine ⟨after, f, r, e, hlearn, hfit, hr, hnonneg, hle, ?_, hroot, hvalue e rfl⟩
  rw [ne_eq, hone rfl r hr]
  rintro ⟨⟨slope, intercept⟩, -, hon⟩
  simp only [List.forall_mem_cons, Line.height] at hon
  linarith [hon.1, hon.2.1, hon.2.2.1]

end Trend

end Backpressure
