import Mathlib.Tactic.LinearCombination
import Backpressure.Proofs.Deviations
import Backpressure.Proofs.Learning

/-!
# The best line

* `Line.loss` : the squared residuals of a line with a penalty on its slope, `loss_eq_add` : how much more than the line of
  least squares another line loses, `eq_leastSquares_of_loss_le` : no other line loses as little;
* `Fit.settledLine_leastSquares` : the line kept for observations of one height is their line of least squares,
  `Fit.ofLine_leastSquares` : its fit by spreads and squared errors;
* `Estimator.Penalises` : the estimators of least squares, each with its penalty;
* `Model.learn_of_penalises`, `fitOf_of_penalises` : a model with one of them learns the line of least squares;
* `Model.learn_finds_best_line` : no line loses less than the one that a model keeps.
-/

namespace Backpressure.Trend
open Number

variable {K : Type} [LinearOrder K] [ExactScalar K] {penalty : K} {points : List (K × K)}

namespace Line

/-! ## Losses -/

/-- The squared residuals of observations, and the squared slope by its penalty. -/
def loss (l : Line K) (penalty : K) (points : List (K × K)) : K := l.squaredError points + penalty * l.slope ^ 2

/-- Another line loses what the line of least squares does, and more for each difference between the two. -/
theorem loss_eq_add (hpenalty : 0 ≤ penalty) (l : Line K) (points : List (K × K)) :
    l.loss penalty points = (leastSquares penalty points).loss penalty points +
      (spread (points.map Prod.fst) + penalty) * (l.slope - (leastSquares penalty points).slope) ^ 2 +
      points.length *
        (Arithmetic.mean (points.map Prod.snd) - l.height (Arithmetic.mean (points.map Prod.fst))) ^ 2 := by
  have hnormal := slope_leastSquares_mul hpenalty points
  unfold loss
  rw [squaredError_eq, squaredError_eq (leastSquares penalty points), height_leastSquares_mean]
  linear_combination 2 * (l.slope - (leastSquares penalty points).slope) * hnormal

theorem leastSquares_loss_le (hpenalty : 0 ≤ penalty) (l : Line K) (points : List (K × K)) :
    (leastSquares penalty points).loss penalty points ≤ l.loss penalty points := by
  have hslope : 0 ≤ (spread (points.map Prod.fst) + penalty) * (l.slope - (leastSquares penalty points).slope) ^ 2 :=
    mul_nonneg (add_nonneg (spread_nonneg _) hpenalty) (sq_nonneg _)
  have hheight : 0 ≤ (points.length : K) *
      (Arithmetic.mean (points.map Prod.snd) - l.height (Arithmetic.mean (points.map Prod.fst))) ^ 2 :=
    mul_nonneg (Nat.cast_nonneg _) (sq_nonneg _)
  rw [loss_eq_add hpenalty l]
  linarith

/-- Where the observations or the penalty fix a slope, no other line loses as little. -/
theorem eq_leastSquares_of_loss_le (hpenalty : 0 ≤ penalty) (hne : points ≠ [])
    (hfixed : 0 < spread (points.map Prod.fst) + penalty) {l : Line K}
    (h : l.loss penalty points ≤ (leastSquares penalty points).loss penalty points) :
    l = leastSquares penalty points := by
  have hlength : (0 : K) < points.length := by exact_mod_cast List.length_pos_iff.mpr hne
  have hmean := height_leastSquares_mean penalty points
  rw [loss_eq_add hpenalty l] at h
  generalize leastSquares penalty points = best at h hmean ⊢
  generalize Arithmetic.mean (points.map Prod.fst) = x at h hmean
  generalize Arithmetic.mean (points.map Prod.snd) = y at h hmean
  have hslope : 0 ≤ (spread (points.map Prod.fst) + penalty) * (l.slope - best.slope) ^ 2 :=
    mul_nonneg hfixed.le (sq_nonneg _)
  have hheight : 0 ≤ (points.length : K) * (y - l.height x) ^ 2 := mul_nonneg hlength.le (sq_nonneg _)
  have hslopes : l.slope - best.slope = 0 := by
    have hzero : (spread (points.map Prod.fst) + penalty) * (l.slope - best.slope) ^ 2 = 0 := by linarith
    exact pow_eq_zero_iff two_ne_zero |>.mp ((mul_eq_zero_iff_left hfixed.ne').mp hzero)
  have hheights : y - l.height x = 0 := by
    have hzero : (points.length : K) * (y - l.height x) ^ 2 = 0 := by linarith
    exact pow_eq_zero_iff two_ne_zero |>.mp ((mul_eq_zero_iff_left hlength.ne').mp hzero)
  obtain ⟨slope, intercept⟩ := l
  obtain ⟨slope', intercept'⟩ := best
  cases sub_eq_zero.mp hslopes
  unfold height at hheights hmean
  congr 1
  dsimp only at hheights hmean
  linarith

/-- Without a deviation on one side that goes with one on the other, the line is horizontal at the mean. -/
theorem leastSquares_of_codeviation (h : codeviation points = 0) :
    leastSquares penalty points = ⟨0, Arithmetic.mean (points.map Prod.snd)⟩ := by
  rw [leastSquares_eq, h, zero_div, ite_self, zero_mul, sub_zero]

end Line

/-! ## Fits of lines of least squares -/

namespace Fit

theorem residuals_eq (l : Line K) (points : List (K × K)) : residuals l points = l.squaredError points := by
  unfold residuals Line.squaredError Line.height
  rw [Arithmetic.sum_eq]
  refine congrArg List.sum (List.map_congr_left fun p _ => ?_)
  dsimp only
  ring

theorem deviations_eq (points : List (K × K)) : deviations points = spread (points.map Prod.snd) := by
  unfold deviations spread
  rw [Arithmetic.sum_eq, List.map_map]
  exact congrArg List.sum (List.map_congr_left fun p _ => (sq _).symm)

/-- The line that is kept for observations of one height is the line of least squares anyway. -/
theorem settledLine_leastSquares (penalty : K) (points : List (K × K)) :
    settledLine (Line.leastSquares penalty points) points = Line.leastSquares penalty points := by
  unfold settledLine
  split
  · rfl
  · next y rest hheights =>
    split
    · next hconstant =>
      rw [← hheights] at hconstant
      have hy : y = Arithmetic.mean (points.map Prod.snd) :=
        eq_mean_of_isConstant hconstant y (hheights ▸ List.mem_cons_self)
      rw [Line.leastSquares_of_codeviation (codeviation_of_isConstant_snd hconstant), ← hy, zero_exact]
    · rfl

theorem ofLine_leastSquares (penalty : K) (points : List (K × K)) :
    let line := Line.leastSquares penalty points
    let error := line.squaredError points
    let variation := spread (points.map Prod.snd)
    let rSquared := if 0 < variation then some (1 - error / variation) else none
    ofLine line points = {
      line
      rSquared
      adjustedRSquared :=
        if 2 < points.length then
          rSquared.map fun r => 1 - (1 - r) * ((points.length : K) - 1) / ((points.length : K) - 2)
        else none
      residualSumSquares := error
      meanSquareError := if 2 < points.length then some (error / ((points.length : K) - 2)) else none
      observations := points.length
      degenerate := isConstant (points.map Prod.fst) } := by
  unfold ofLine
  simp only [settledLine_leastSquares, residuals_eq, deviations_eq, ofInt_exact, zero_exact, one_exact,
    lt_exact, isFinite_exact, if_true, Int.cast_sub, Int.cast_natCast, Int.cast_one, Int.cast_ofNat,
    Option.map_eq_bind]
  rfl

end Fit

/-! ## Estimators of least squares -/

/-- An estimator of least squares with its penalty on the slope, which is not negative. -/
inductive Estimator.Penalises : Estimator K → K → Prop where
  | leastSquares : Penalises .leastSquares 0
  | ridge {penalty : K} (nonneg : 0 ≤ penalty) : Penalises (.ridge penalty) penalty

namespace Estimator.Penalises

variable {e : Estimator K}

theorem nonneg (h : e.Penalises penalty) : 0 ≤ penalty := by
  cases h with
  | leastSquares => exact le_rfl
  | ridge nonneg => exact nonneg

theorem ne_inert (h : e.Penalises penalty) : e ≠ .inert := by
  cases h <;> nofun

/-- Where nothing overflows, what least squares are solved for is finite. -/
theorem estimate_eq (h : e.Penalises penalty) (points : List (K × K)) :
    Model.estimate e points = .ok (Line.leastSquares penalty points) := by
  have hsolve (penalty : K) : Model.solve penalty points true = .ok (Line.leastSquares penalty points) :=
    congrArg Except.ok (leastSquares_exact penalty points)
  cases h with
  | leastSquares =>
    have hcentred : Model.isCentred points = true := by
      refine List.all_eq_true.mpr fun p _ => ?_
      rw [isFinite_exact, isFinite_exact, Bool.and_self]
    unfold Model.estimate
    dsimp only
    rw [hcentred, hsolve, zero_exact]
  | ridge nonneg =>
    have hnot : Scalar.lt penalty Scalar.zero = false := by
      rw [Bool.eq_false_iff, ne_eq, lt_exact, zero_exact]
      exact not_lt.mpr nonneg
    have hsolvable : Model.isSolvable penalty points = true := by
      unfold Model.isSolvable
      rw [isFinite_exact, isFinite_exact, Bool.and_self]
    unfold Model.estimate
    dsimp only
    rw [isFinite_exact, hnot, hsolvable, hsolve]
    rfl

end Estimator.Penalises

namespace Model

variable {e : Estimator K} {m : Model K} {xs ys : List K}

theorem fitOf_of_penalises (h : e.Penalises penalty) (points : List (K × K)) : fitOf e points = .ok
    (if points.length < 2 then none else some (Fit.ofLine (Line.leastSquares penalty points) points)) := by
  unfold fitOf
  rw [h.estimate_eq]
  split <;> rfl

omit [LinearOrder K] [ExactScalar K] in
theorem points_retain (m : Model K) (batch : List (K × K)) :
    (m.retain batch).points = (if m.clearOnLearn then [] else m.points) ++ batch := by
  unfold retain
  dsimp only
  split <;> rfl

/-- A batch of as many features as labels is learned, and the line is that of least squares of all that is retained. -/
theorem learn_of_penalises (h : m.estimator.Penalises penalty) (hne : xs ≠ []) (hlength : xs.length = ys.length)
    (hmany : 2 ≤ (m.retain (xs.zip ys)).points.length) : m.learn xs ys =
      (.ok (), { m.retain (xs.zip ys) with
        fit := some (Fit.ofLine (Line.leastSquares penalty (m.retain (xs.zip ys)).points)
          (m.retain (xs.zip ys)).points) }) := by
  have hnone : refusal? xs ys = none := refusal?_eq_none.mpr
    ⟨hne, hlength, fun _ _ => isFinite_exact _, fun _ _ => isFinite_exact _⟩
  have hfit := fitOf_of_penalises h (m.retain (xs.zip ys)).points
  rw [if_neg (by omega)] at hfit
  rw [learn_of_ne_inert h.ne_inert, hnone]
  exact refit_eq_ok.mpr ⟨_, hfit, rfl⟩

end Model

/-! ## The line that a model keeps -/

/-- However a model with an estimator of least squares has come by what it retains: the line that it keeps of it loses
least of all lines, and is the only one where the observations or the penalty fix a slope. -/
theorem Model.learn_finds_best_line {m : Model Rat} {penalty : Rat} (h : m.estimator.Penalises penalty)
    {xs ys : List Rat} (hne : xs ≠ []) (hlength : xs.length = ys.length)
    (hmany : 2 ≤ (m.retain (xs.zip ys)).points.length) : ∃ after f, m.learn xs ys = (.ok (), after) ∧
      after.points = (if m.clearOnLearn then [] else m.points) ++ xs.zip ys ∧ after.fit = some f ∧
      (∀ l : Line Rat, f.line.loss penalty after.points ≤ l.loss penalty after.points) ∧
      (0 < spread (after.points.map Prod.fst) + penalty → ∀ l : Line Rat,
        l.loss penalty after.points ≤ f.line.loss penalty after.points → l = f.line) ∧
      f.line = Line.leastSquares penalty after.points ∧ (after.points.map fun p => p.2 - f.line.height p.1).sum = 0 ∧
      f.residualSumSquares = f.line.squaredError after.points ∧
      (∀ y, (∀ p ∈ after.points, p.2 = y) → f.line = ⟨0, y⟩) ∧
      (∀ x, (∀ p ∈ after.points, p.1 = x) → f.line = ⟨0, Arithmetic.mean (after.points.map Prod.snd)⟩) := by
  refine ⟨_, _, learn_of_penalises h hne hlength hmany, points_retain m _, rfl, ?_⟩
  dsimp only
  generalize (m.retain (xs.zip ys)).points = points at hmany ⊢
  have hpoints : points ≠ [] := List.length_pos_iff.mp (by omega)
  have hnonneg := h.nonneg
  rw [Fit.ofLine_leastSquares]
  dsimp only
  refine ⟨fun l => Line.leastSquares_loss_le hnonneg l points,
    fun hfixed l hl => Line.eq_leastSquares_of_loss_le hnonneg hpoints hfixed hl, rfl, ?_, rfl, ?_, ?_⟩
  · rw [Line.sum_residuals, Line.height_leastSquares_mean, sub_self, mul_zero]
  · intro y hy
    have hconstant := isConstant_map hy
    obtain ⟨p, hp⟩ := List.exists_mem_of_ne_nil points hpoints
    rw [Line.leastSquares_of_codeviation (codeviation_of_isConstant_snd hconstant),
      ← eq_mean_of_isConstant hconstant p.2 (List.mem_map_of_mem hp), hy p hp]
  · intro x hx
    exact Line.leastSquares_of_codeviation (codeviation_of_isConstant_fst (isConstant_map hx))

/-- The ridge line of penalty 1 through four observations rises by two thirds, where the best line without a penalty
rises by four fifths. -/
theorem Model.ridge_finds_best_line : ∃ after f,
    (fresh (.ridge 1) true false).learn [0, 1, 2, 3] [1, 3, 2, 4] = (.ok (), after) ∧ after.fit = some f ∧
      f.line = (⟨2 / 3, 3 / 2⟩ : Line Rat) ∧
      f.line.loss 1 [(0, 1), (1, 3), (2, 2), (3, 4)] ≤ (⟨4 / 5, 13 / 10⟩ : Line Rat).loss 1
        [(0, 1), (1, 3), (2, 2), (3, 4)] := by
  have hpenalty : (Estimator.ridge (1 : Rat)).Penalises 1 := .ridge (by decide)
  obtain ⟨after, f, hlearn, hpoints, hfit, hbest, -⟩ := learn_finds_best_line
    (m := fresh (.ridge (1 : Rat)) true false) hpenalty (show ([0, 1, 2, 3] : List Rat) ≠ [] by decide)
    (show [0, 1, 2, 3].length = ([1, 3, 2, 4] : List Rat).length from rfl) (by decide)
  have hline : ((fresh (.ridge (1 : Rat)) true false).learn [0, 1, 2, 3] [1, 3, 2, 4]).2.fit.map Fit.line =
      some ⟨2 / 3, 3 / 2⟩ := by decide +kernel
  rw [hlearn] at hline
  dsimp only at hline
  rw [hfit] at hline
  have hbetter := hbest ⟨4 / 5, 13 / 10⟩
  rw [hpoints] at hbetter
  exact ⟨after, f, hlearn, hfit, Option.some.inj hline, hbetter⟩

end Backpressure.Trend
