import Mathlib.Algebra.Order.BigOperators.Group.List
import Mathlib.Algebra.Order.Field.Basic
import Mathlib.Algebra.Ring.Rat
import Mathlib.Algebra.Order.Ring.Rat
import Backpressure.Proofs.Exact

/-!
# Means and deviations of observations

* `ExactScalar` : scalars that are an ordered field and whose operations do not round, such as the rational numbers;
* `Arithmetic.sum_eq`, `mean_eq` : their sums and means, `sum_sub_mean` : the deviations from the mean add up to zero;
* `spread`, `codeviation` : the squared deviations of numbers, and the products of the deviations of both sides of
  observations, `spread_eq_zero` : no number deviates from the mean if all are equal;
* `Line.leastSquares_eq` : the line of least squares by these, `slope_leastSquares_mul` : its normal equation;
* `Line.squaredError` : the squared residuals of observations, `squaredError_eq` : the same by the deviations and by the
  height of the line at the means, `sum_residuals` : what its residuals add up to.
-/

namespace Backpressure
open Number Trend

/-- Scalars that are the numbers of an ordered field, with operations that neither round nor overflow. -/
structure Number.ExactScalar (K : Type) [LinearOrder K] extends Scalar K, Field K, IsStrictOrderedRing K where
  ratio_eq (n d : Int) : ratio n d = (n : K) / (d : K)
  isZero_iff (x : K) : isZero x = true ↔ x = 0
  lt_iff (x y : K) : Scalar.lt x y = true ↔ x < y
  eq_iff (x y : K) : Scalar.eq x y = true ↔ x = y
  isFinite_eq (x : K) : Scalar.isFinite x = true
  leastSquares_eq (penalty : K) (points : List (K × K)) :
    Scalar.leastSquares penalty points = Line.leastSquares penalty points

attribute [class] ExactScalar

-- These have a low priority, so that the numbers of a known field keep the instances of their own.
instance (priority := low) ExactScalar.scalar {K : Type} [LinearOrder K] [h : ExactScalar K] : Scalar K := h.toScalar
instance (priority := low) ExactScalar.field {K : Type} [LinearOrder K] [h : ExactScalar K] : Field K := h.toField
instance (priority := low) ExactScalar.ordered {K : Type} [LinearOrder K] [h : ExactScalar K] :
    IsStrictOrderedRing K := h.toIsStrictOrderedRing

instance : ExactScalar Rat where
  __ := (inferInstance : Scalar Rat)
  __ := (inferInstance : Field Rat)
  __ := (inferInstance : IsStrictOrderedRing Rat)
  ratio_eq _ _ := rfl
  isZero_iff x := by
    show (x.num == 0) = true ↔ x = 0
    simp
  lt_iff := by simp
  eq_iff := by simp
  isFinite_eq _ := rfl
  leastSquares_eq _ _ := rfl

variable {K : Type} [LinearOrder K] [ExactScalar K]

namespace Number

/-! ## Exact operations -/

theorem ratio_exact (n d : Int) : (Arithmetic.ratio n d : K) = n / d := ExactScalar.ratio_eq _ n d

theorem isZero_exact {x : K} : Arithmetic.isZero x = true ↔ x = 0 := ExactScalar.isZero_iff _ x

theorem lt_exact {x y : K} : Scalar.lt x y = true ↔ x < y := ExactScalar.lt_iff _ x y

theorem eq_exact {x y : K} : Scalar.eq x y = true ↔ x = y := ExactScalar.eq_iff _ x y

theorem isFinite_exact (x : K) : Scalar.isFinite x = true := ExactScalar.isFinite_eq _ x

theorem leastSquares_exact (penalty : K) (points : List (K × K)) :
    Scalar.leastSquares penalty points = Line.leastSquares penalty points := ExactScalar.leastSquares_eq _ penalty points

@[simp] theorem ofInt_exact (n : Int) : (Arithmetic.ofInt n : K) = n := by
  unfold Arithmetic.ofInt
  rw [ratio_exact, Int.cast_one, div_one]

@[simp] theorem zero_exact : (Scalar.zero : K) = 0 := (ofInt_exact 0).trans Int.cast_zero

@[simp] theorem one_exact : (Scalar.one : K) = 1 := (ofInt_exact 1).trans Int.cast_one

/-! ## Sums and means -/

namespace Arithmetic

theorem sum_eq (xs : List K) : sum xs = xs.sum := by
  unfold sum
  rw [ofInt_exact, Int.cast_zero, List.sum_eq_foldl]

theorem mean_eq (xs : List K) : mean xs = xs.sum / xs.length := by
  unfold mean
  rw [sum_eq, ofInt_exact, Int.cast_natCast]

theorem length_mul_mean (xs : List K) : xs.length * mean xs = xs.sum := by
  rw [mean_eq]
  cases xs with
  | nil => simp
  | cons x rest => exact mul_div_cancel₀ _ (by exact_mod_cast Nat.succ_ne_zero rest.length)

/-- The deviations from the mean add up to zero. -/
theorem sum_sub_mean {α : Type} (f : α → K) (xs : List α) : (xs.map fun x => f x - mean (xs.map f)).sum = 0 := by
  have hmean := length_mul_mean (xs.map f)
  rw [List.length_map] at hmean
  simp only [sub_eq_add_neg, List.sum_map_add, List.map_const', List.sum_replicate, nsmul_eq_mul, mul_neg, hmean,
    add_neg_cancel]

end Arithmetic

end Number

namespace Trend

/-- The squared deviations of numbers from their mean. -/
def spread (xs : List K) : K := (xs.map fun x => (x - Arithmetic.mean xs) ^ 2).sum

/-- The products of the deviations of both sides of observations. -/
def codeviation (points : List (K × K)) : K := (points.map fun p =>
  (p.1 - Arithmetic.mean (points.map Prod.fst)) * (p.2 - Arithmetic.mean (points.map Prod.snd))).sum

/-! ## Squares that add up to nothing -/

theorem sum_squares_nonneg {α : Type} (f : α → K) (xs : List α) : 0 ≤ (xs.map fun x => f x ^ 2).sum := by
  refine List.sum_nonneg fun y hy => ?_
  obtain ⟨x, -, rfl⟩ := List.mem_map.mp hy
  exact sq_nonneg (f x)

theorem sum_squares_eq_zero {α : Type} {f : α → K} {xs : List α} :
    (xs.map fun x => f x ^ 2).sum = 0 ↔ ∀ x ∈ xs, f x = 0 := by
  constructor
  · intro h x hx
    have hnonneg : ∀ y ∈ xs.map fun x => f x ^ 2, 0 ≤ y := by
      intro y hy
      obtain ⟨z, -, rfl⟩ := List.mem_map.mp hy
      exact sq_nonneg (f z)
    exact pow_eq_zero_iff two_ne_zero |>.mp
      (List.all_zero_of_le_zero_le_of_sum_eq_zero hnonneg h (List.mem_map_of_mem hx))
  · intro h
    refine List.sum_eq_zero fun y hy => ?_
    obtain ⟨x, hx, rfl⟩ := List.mem_map.mp hy
    rw [h x hx, zero_pow two_ne_zero]

/-! ## Spreads -/

theorem spread_nonneg (xs : List K) : 0 ≤ spread xs := sum_squares_nonneg _ xs

theorem isConstant_iff {xs : List K} : isConstant xs = true ↔ ∀ x ∈ xs, ∀ y ∈ xs, x = y := by
  cases xs with
  | nil => simp [isConstant]
  | cons x rest =>
    have hhead : isConstant (x :: rest) = true ↔ ∀ y ∈ rest, x = y := by
      unfold isConstant
      rw [List.all_eq_true]
      exact forall₂_congr fun y _ => eq_exact
    rw [hhead]
    constructor
    · intro h y hy z hz
      have hall : ∀ w ∈ x :: rest, w = x := List.forall_mem_cons.mpr ⟨rfl, fun w hw => (h w hw).symm⟩
      rw [hall y hy, hall z hz]
    · exact fun h y hy => h x List.mem_cons_self y (List.mem_cons_of_mem x hy)

theorem isConstant_map {α : Type} {f : α → K} {xs : List α} {a : K} (h : ∀ x ∈ xs, f x = a) :
    isConstant (xs.map f) = true := by
  simp only [isConstant_iff, List.forall_mem_map]
  exact fun x hx y hy => (h x hx).trans (h y hy).symm

/-- Numbers that are all equal are equal to their mean. -/
theorem eq_mean_of_isConstant {xs : List K} (h : isConstant xs = true) : ∀ x ∈ xs, x = Arithmetic.mean xs := by
  intro x hx
  have hsum : xs.sum = xs.length * x := by
    rw [List.eq_replicate_of_mem fun y hy => isConstant_iff.mp h y hy x hx, List.sum_replicate, nsmul_eq_mul,
      List.length_replicate]
  have hlength : (xs.length : K) ≠ 0 := by exact_mod_cast (List.length_pos_of_mem hx).ne'
  rw [Arithmetic.mean_eq, hsum, mul_div_cancel_left₀ _ hlength]

/-- Only numbers that are all equal have no spread. -/
theorem spread_eq_zero {xs : List K} : spread xs = 0 ↔ isConstant xs = true := by
  unfold spread
  rw [sum_squares_eq_zero]
  constructor
  · intro h
    refine isConstant_iff.mpr fun x hx y hy => ?_
    rw [sub_eq_zero.mp (h x hx), sub_eq_zero.mp (h y hy)]
  · exact fun h x hx => sub_eq_zero.mpr (eq_mean_of_isConstant h x hx)

theorem codeviation_of_isConstant_fst {points : List (K × K)} (h : isConstant (points.map Prod.fst) = true) :
    codeviation points = 0 := by
  refine List.sum_eq_zero fun y hy => ?_
  obtain ⟨p, hp, rfl⟩ := List.mem_map.mp hy
  rw [← eq_mean_of_isConstant h p.1 (List.mem_map_of_mem hp), sub_self, zero_mul]

theorem codeviation_of_isConstant_snd {points : List (K × K)} (h : isConstant (points.map Prod.snd) = true) :
    codeviation points = 0 := by
  refine List.sum_eq_zero fun y hy => ?_
  obtain ⟨p, hp, rfl⟩ := List.mem_map.mp hy
  rw [← eq_mean_of_isConstant h p.2 (List.mem_map_of_mem hp), sub_self, mul_zero]

namespace Line

/-! ## The line of least squares -/

variable {penalty : K}

theorem leastSquares_eq (penalty : K) (points : List (K × K)) :
    let slope := if spread (points.map Prod.fst) + penalty = 0 then 0
      else codeviation points / (spread (points.map Prod.fst) + penalty)
    leastSquares penalty points = ⟨slope,
      Arithmetic.mean (points.map Prod.snd) - slope * Arithmetic.mean (points.map Prod.fst)⟩ := by
  have hfactor : slopeFactor penalty points = spread (points.map Prod.fst) + penalty := by
    unfold slopeFactor deviations spread
    rw [Arithmetic.sum_eq, List.map_map, List.map_map]
    exact congrArg (List.sum · + penalty) (List.map_congr_left fun p _ => (sq _).symm)
  have htarget : slopeTarget points = codeviation points := by
    unfold slopeTarget deviations codeviation
    rw [Arithmetic.sum_eq, List.map_map]
    rfl
  unfold leastSquares
  simp only [hfactor, htarget, isZero_exact, ofInt_exact, Int.cast_zero]

/-- The normal equation. It holds too where neither the observations nor the penalty fix a slope. -/
theorem slope_leastSquares_mul (hpenalty : 0 ≤ penalty) (points : List (K × K)) :
    (spread (points.map Prod.fst) + penalty) * (leastSquares penalty points).slope = codeviation points := by
  rw [leastSquares_eq]
  dsimp only
  split
  · next hzero =>
    have hspread : spread (points.map Prod.fst) = 0 :=
      le_antisymm (by linarith) (spread_nonneg (points.map Prod.fst))
    rw [mul_zero, codeviation_of_isConstant_fst (spread_eq_zero.mp hspread)]
  · next hne => rw [mul_div_cancel₀ _ hne]

/-- The line passes through the means. -/
theorem height_leastSquares_mean (penalty : K) (points : List (K × K)) :
    (leastSquares penalty points).height (Arithmetic.mean (points.map Prod.fst)) =
      Arithmetic.mean (points.map Prod.snd) := by
  rw [leastSquares_eq]
  unfold height
  ring

/-! ## Squared errors -/

/-- The squared residuals of observations. -/
def squaredError (l : Line K) (points : List (K × K)) : K := (points.map fun p => (p.2 - l.height p.1) ^ 2).sum

theorem squaredError_eq (l : Line K) (points : List (K × K)) : l.squaredError points =
    spread (points.map Prod.snd) - 2 * l.slope * codeviation points + l.slope ^ 2 * spread (points.map Prod.fst) +
      points.length *
        (Arithmetic.mean (points.map Prod.snd) - l.height (Arithmetic.mean (points.map Prod.fst))) ^ 2 := by
  have hsquare (p : K × K) (x y : K) : (p.2 - l.height p.1) ^ 2 =
      (p.2 - y) ^ 2 + -(2 * l.slope) * ((p.1 - x) * (p.2 - y)) + l.slope ^ 2 * (p.1 - x) ^ 2 +
        2 * (y - l.height x) * (p.2 - y) + -(2 * (y - l.height x) * l.slope) * (p.1 - x) + (y - l.height x) ^ 2 := by
    unfold height
    ring
  unfold squaredError spread codeviation
  simp only [hsquare _ (Arithmetic.mean (points.map Prod.fst)) (Arithmetic.mean (points.map Prod.snd)),
    List.sum_map_add, List.sum_map_mul_left, Arithmetic.sum_sub_mean Prod.fst points,
    Arithmetic.sum_sub_mean Prod.snd points, List.map_const', List.sum_replicate, nsmul_eq_mul, List.map_map,
    Function.comp_def]
  ring

/-- The residuals add up to what the line misses the means by, for each observation. -/
theorem sum_residuals (l : Line K) (points : List (K × K)) : (points.map fun p => p.2 - l.height p.1).sum =
    points.length * (Arithmetic.mean (points.map Prod.snd) - l.height (Arithmetic.mean (points.map Prod.fst))) := by
  have hresidual (p : K × K) (x y : K) :
      p.2 - l.height p.1 = (p.2 - y) + -l.slope * (p.1 - x) + (y - l.height x) := by
    unfold height
    ring
  simp only [hresidual _ (Arithmetic.mean (points.map Prod.fst)) (Arithmetic.mean (points.map Prod.snd)),
    List.sum_map_add, List.sum_map_mul_left, Arithmetic.sum_sub_mean Prod.fst points,
    Arithmetic.sum_sub_mean Prod.snd points, List.map_const', List.sum_replicate, nsmul_eq_mul]
  ring

end Line

end Trend

end Backpressure
