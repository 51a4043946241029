import Mathlib.Data.Sign.Basic
import Backpressure.Proofs.Origin
import Backpressure.Proofs.Scores

/-!
# What a penalty does to a line

* `Line.exists_slope_eq_mul` : with a larger penalty the slope of the line of least squares is a part of what it was,
  `sign_slope_leastSquares`, `abs_slope_leastSquares_le` : it keeps its sign and does not grow;
* `Line.squaredError_leastSquares_mono` : the squared residuals do not become less;
* `Fit.Flattened` : a fit of the same observations that is flatter and worse than another one, or the same,
  `Fit.flattened_leastSquares` : so is the fit with a larger penalty;
* `Model.penalties_flatten_lines` : of two models that are taught the same, the one with the larger penalty has that fit.
-/

namespace Backpressure.Trend
open Number

variable {K : Type} [LinearOrder K] [ExactScalar K] {a b : K}

namespace Line

/-! ## Slopes -/

/-- With a larger penalty the slope is a part of what it was. -/
theorem exists_slope_eq_mul (ha : 0 ≤ a) (hle : a ≤ b) (points : List (K × K)) : ∃ part : K, 0 < part ∧ part ≤ 1 ∧
    (leastSquares b points).slope = part * (leastSquares a points).slope := by
  have hnormal := slope_leastSquares_mul ha points
  have hnormal' := slope_leastSquares_mul (ha.trans hle) points
  have hmore : spread (points.map Prod.fst) + a ≤ spread (points.map Prod.fst) + b := by linarith
  rcases (add_nonneg (spread_nonneg (points.map Prod.fst)) ha).eq_or_lt with hzero | hpos
  · -- Nothing fixes a slope without the larger penalty, and both lines are horizontal.
    rw [← hzero, zero_mul] at hnormal
    refine ⟨1, one_pos, le_rfl, ?_⟩
    rw [leastSquares_of_codeviation hnormal.symm, leastSquares_of_codeviation hnormal.symm, mul_zero]
  · have hpos' := hpos.trans_le hmore
    refine ⟨(spread (points.map Prod.fst) + a) / (spread (points.map Prod.fst) + b), div_pos hpos hpos',
      div_le_one_of_le₀ hmore hpos'.le, ?_⟩
    rw [div_mul_eq_mul_div, hnormal, ← hnormal', mul_div_cancel_left₀ _ hpos'.ne']

theorem sign_slope_leastSquares (ha : 0 ≤ a) (hle : a ≤ b) (points : List (K × K)) :
    SignType.sign (leastSquares b points).slope = SignType.sign (leastSquares a points).slope := by
  obtain ⟨part, hpos, -, hslope⟩ := exists_slope_eq_mul ha hle points
  rw [hslope, sign_mul, sign_pos hpos, one_mul]

theorem abs_slope_leastSquares_le (ha : 0 ≤ a) (hle : a ≤ b) (points : List (K × K)) :
    |(leastSquares b points).slope| ≤ |(leastSquares a points).slope| := by
  obtain ⟨part, hpos, hone, hslope⟩ := exists_slope_eq_mul ha hle points
  rw [hslope, abs_mul, abs_of_pos hpos]
  exact mul_le_of_le_one_left (abs_nonneg _) hone

/-! ## Errors -/

/-- The line with the larger penalty is no better for the smaller one, and its slope costs no more there. -/
theorem squaredError_leastSquares_mono (ha : 0 ≤ a) (hle : a ≤ b) (points : List (K × K)) :
    (leastSquares a points).squaredError points ≤ (leastSquares b points).squaredError points := by
  have hloss := leastSquares_loss_le ha (leastSquares b points) points
  have hslope : a * (leastSquares b points).slope ^ 2 ≤ a * (leastSquares a points).slope ^ 2 :=
    mul_le_mul_of_nonneg_left (sq_le_sq.mpr (abs_slope_leastSquares_le ha hle points)) ha
  unfold loss at hloss
  linarith

end Line

/-! ## Fits -/

namespace Fit

/-- A fit that is as steep as another fit of the same observations or flatter, and as good or worse. -/
structure Flattened (f f' : Fit K) : Prop where
  sign_slope : SignType.sign f'.line.slope = SignType.sign f.line.slope
  abs_slope_le : |f'.line.slope| ≤ |f.line.slope|
  error_le : f.residualSumSquares ≤ f'.residualSumSquares
  rSquared_isSome : f'.rSquared.isSome = f.rSquared.isSome
  rSquared_le : ∀ r r', f.rSquared = some r → f'.rSquared = some r' → r' ≤ r

theorem flattened_leastSquares (ha : 0 ≤ a) (hle : a ≤ b) (points : List (K × K)) :
    (ofLine (Line.leastSquares a points) points).Flattened (ofLine (Line.leastSquares b points) points) := by
  have herror := Line.squaredError_leastSquares_mono ha hle points
  refine ⟨?_, ?_, ?_, ?_, fun r r' hr hr' => ?_⟩
  · rw [ofLine_leastSquares, ofLine_leastSquares]
    exact Line.sign_slope_leastSquares ha hle points
  · rw [ofLine_leastSquares, ofLine_leastSquares]
    exact Line.abs_slope_leastSquares_le ha hle points
  · rw [ofLine_leastSquares, ofLine_leastSquares]
    exact herror
  · rw [rSquared_leastSquares, rSquared_leastSquares]
    split <;> rfl
  · rw [rSquared_leastSquares, Option.ite_none_right_eq_some] at hr hr'
    obtain ⟨hvaries, hr⟩ := hr
    obtain ⟨-, hr'⟩ := hr'
    cases hr
    cases hr'
    exact sub_le_sub_left (div_le_div_of_nonneg_right herror hvaries.le) 1

end Fit

/-! ## Models that are taught the same -/

namespace Model

/-- Two models are taught the same lessons, one of them with a larger penalty. They retain the same observations, and of
two or more of them its line is the flatter one and fits them less well, if it is another line at all. Both lines pass
through the means. -/
theorem penalties_flatten_lines {e e' : Estimator Rat} {a b : Rat} (ha : e.Penalises a) (hb : e'.Penalises b)
    (hle : a ≤ b) (online clearOnLearn : Bool) (lessons : List (Lesson Rat)) :
    let m := (fresh e online clearOnLearn).after lessons
    let m' := (fresh e' online clearOnLearn).after lessons
    m'.points = m.points ∧ (2 ≤ m.points.length → ∃ f f', m.fit = some f ∧ m'.fit = some f' ∧ f.Flattened f' ∧
      let x := Arithmetic.mean (m.points.map Prod.fst)
      let y := Arithmetic.mean (m.points.map Prod.snd)
      f.line.height x = y ∧ f'.line.height x = y) := by
  intro m m'
  have hpoints : m.points = retained clearOnLearn (accepted lessons) :=
    (Taught.after ha.ne_inert online clearOnLearn lessons).points
  have hpoints' : m'.points = retained clearOnLearn (accepted lessons) :=
    (Taught.after hb.ne_inert online clearOnLearn lessons).points
  have hfit : m.fit = _ := fit_after ha online clearOnLearn lessons
  have hfit' : m'.fit = _ := fit_after hb online clearOnLearn lessons
  rw [hfit, hfit', hpoints, hpoints']
  generalize retained clearOnLearn (accepted lessons) = points
  refine ⟨rfl, fun hmany => ?_⟩
  rw [if_neg (by omega), if_neg (by omega)]
  refine ⟨_, _, rfl, rfl, Fit.flattened_leastSquares ha.nonneg hle points, ?_⟩
  rw [Fit.ofLine_leastSquares, Fit.ofLine_leastSquares]
  exact ⟨Line.height_leastSquares_mean a points, Line.height_leastSquares_mean b points⟩

/-- Four observations in two batches are learned by an ordinary line and by a ridge line of penalty 1, with a batch
between them that is refused. The ridge line rises by two thirds, the other one by four fifths. -/
theorem penalty_flattens_line_of_four :
    let lessons : List (Lesson Rat) := [.batch [.number 0, .number 1] [.number 1, .number 3],
      .batch [.number 5] [.number 6, .number 7], .batch [.row [2], .row [3]] [.number 2, .number 4]]
    (Estimator.leastSquares : Estimator Rat).Penalises 0 ∧ (Estimator.ridge (1 : Rat)).Penalises 1 ∧ (0 : Rat) ≤ 1 ∧
      ∃ f f', ((fresh .leastSquares true false).after lessons).fit = some f ∧
        ((fresh (.ridge 1) true false).after lessons).fit = some f' ∧ f.line = ⟨4 / 5, 13 / 10⟩ ∧
        f'.line = ⟨2 / 3, 3 / 2⟩ ∧ f.Flattened f' := by
  intro lessons
  have hnone : (Estimator.leastSquares : Estimator Rat).Penalises 0 := .leastSquares
  have hone : (Estimator.ridge (1 : Rat)).Penalises 1 := .ridge (by decide)
  obtain ⟨-, hfits⟩ := penalties_flatten_lines hnone hone (by decide) true false lessons
  obtain ⟨f, f', hf, hf', hflattened, -⟩ := hfits (by decide +kernel)
  have hlines : ((fresh (.leastSquares : Estimator Rat) true false).after lessons).fit.map Fit.line =
      some ⟨4 / 5, 13 / 10⟩ := by decide +kernel
  have hlines' : ((fresh (.ridge (1 : Rat)) true false).after lessons).fit.map Fit.line = some ⟨2 / 3, 3 / 2⟩ := by
    decide +kernel
  rw [hf] at hlines
  rw [hf'] at hlines'
  exact ⟨hnone, hone, by decide, f, f', hf, hf', Option.some.inj hlines, Option.some.inj hlines', hflattened⟩

end Model

end Backpressure.Trend
