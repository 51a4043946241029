import Backpressure.Proofs.Products
import Backpressure.Proofs.Raising

/-!
# Percentages of limits

* `Number.Binary64.unitsOf_nearest_mono`, `mul_le_mul_of_unitsOf_le` : rounding and products keep the order;
* `Number.Binary64.percentage_mono` : so does a percentage, as a function of the exact quotient;
* `LiveModel.nextSize`, `LiveModel.parts_of_forecast` : what a forecast consists of, `LiveModel.quotient_of_forecast` : its
  percentage;
* `LiveModel.percentages_follow_limits` : the percentages of forecasts for one line and different limits.
-/

namespace Backpressure
open Number Time Trend

namespace Number.Binary64

theorem unitsOf_nearest_mono {p q : Rat} (h : p ≤ q) : unitsOf (nearest p) ≤ unitsOf (nearest q) := by
  rw [(unitsOf_nearest p).2, (unitsOf_nearest q).2]
  exact cut_mono (settled_mono (mul_le_mul_of_nonneg_right h (pow_nonneg zero_le_two _)))

theorem mul_le_mul_of_unitsOf_le {x y z : Float} (hx : x.isFinite = true) (hy : y.isFinite = true)
    (hz : z.isFinite = true) (hpos : 0 ≤ unitsOf z) (h : unitsOf x ≤ unitsOf y) : x * z ≤ y * z := by
  obtain ⟨hxnumber, hxunits⟩ := unitsOf_mul hx hz
  obtain ⟨hynumber, hyunits⟩ := unitsOf_mul hy hz
  rw [le_iff_unitsOf hxnumber hynumber, hxunits, hyunits]
  refine cut_mono (settled_mono (div_le_div_of_nonneg_right ?_ (pow_nonneg zero_le_two _)))
  exact_mod_cast Int.mul_le_mul_of_nonneg_right h hpos

/-! ## Percentages -/

/-- The double of a quotient in percent. -/
def percentage (q : Rat) : Float := nearest q * Arithmetic.ofInt 100

theorem ratio_eq (n d : Int) : (Arithmetic.ratio n d : Float) = nearest ((n : Rat) / d) := by
  show nearest (mkRat (if d < 0 then -n else n) d.natAbs) = _
  rw [Rat.mkRat_eq_div]
  congr 1
  split
  · next hneg =>
    rw [Nat.cast_natAbs, abs_of_neg hneg, Int.cast_neg, Int.cast_neg, neg_div_neg_eq]
  · next hpos => rw [Nat.cast_natAbs, abs_of_nonneg (by omega)]

theorem percentage_mono {p q : Rat} (hp : |p| < overflow) (hq : |q| < overflow) (h : p ≤ q) :
    percentage p ≤ percentage q := by
  have hhundred : (Arithmetic.ofInt 100 : Float).isFinite = true := by decide +kernel
  have hpos : 0 ≤ unitsOf (Arithmetic.ofInt 100 : Float) :=
    unitsOf_nearest_mono (show (0 : Rat) ≤ (100 : Int) by norm_num)
  exact mul_le_mul_of_unitsOf_le ((isFinite_nearest_iff_abs p).mpr hp) ((isFinite_nearest_iff_abs q).mpr hq) hhundred
    hpos (unitsOf_nearest_mono h)

theorem percentage_zero : percentage 0 = 0 := by decide +kernel

theorem abs_zero_lt_overflow : |(0 : Rat)| < overflow := by
  rw [abs_zero]
  exact Nat.cast_pos.mpr (Nat.zero_lt_of_lt greatest_lt_overflow)

theorem percentage_nonneg {q : Rat} (hq : |q| < overflow) (h : 0 ≤ q) : 0 ≤ percentage q :=
  percentage_zero ▸ percentage_mono abs_zero_lt_overflow hq h

theorem percentage_nonpos {q : Rat} (hq : |q| < overflow) (h : q ≤ 0) : percentage q ≤ 0 :=
  percentage_zero ▸ percentage_mono hq abs_zero_lt_overflow h

end Number.Binary64

namespace LiveModel
open Binary64

/-! ## What a forecast consists of -/

section Parts

variable {s : LiveModel Float} {f : Fit Float} {limit : Option Limit} {now target : Instant} {found : Forecast Float}

/-- The size that a line predicts for an instant, absent where its height is not finite. -/
def nextSize (s : LiveModel Float) (f : Fit Float) (target : Instant) : Option Int :=
  let height := f.height (s.origin.millisTo target)
  if Scalar.isFinite height then some (max 0 (Scalar.round height)) else none

theorem parts_of_forecast (hfit : s.model.fit = some f) (h : forecast (some s) limit now target = .ok found) :
    s.timeToLimit f limit now = .ok found.eta ∧ found.next = s.nextSize f target ∧
      found.percentage = (s.nextSize f target).bind (percentageOf · limit) := by
  unfold forecast at h
  simp only [hfit] at h
  unfold forecastFrom at h
  unfold nextSize
  cases heta : s.timeToLimit f limit now with
  | error e =>
    rw [heta] at h
    cases h
  | ok eta =>
    rw [heta] at h
    simp only [bind, Except.bind] at h
    split at h
    · next hfinite =>
      cases h
      exact ⟨rfl, (if_pos hfinite).symm, by rw [if_pos hfinite]; rfl⟩
    · next hfinite =>
      cases h
      exact ⟨rfl, (if_neg hfinite).symm, by rw [if_neg hfinite]; rfl⟩

theorem nextSize_bounds {n : Int} (h : s.nextSize f target = some n) : 0 ≤ n ∧ n < overflow := by
  unfold nextSize at h
  dsimp only at h
  generalize f.height (s.origin.millisTo target) = height at h
  split at h
  · next hfinite =>
    cases h
    have hle := (abs_le.mp (abs_exact_le hfinite)).2
    have hround : Scalar.round height ≤ (greatest : Int) := roundEven_le (by exact_mod_cast hle)
    have := greatest_lt_overflow
    omega
  · cases h

theorem pos_of_isBounded {eta : Eta} (h : s.timeToLimit f limit now = .ok eta) (hbounded : eta.isBounded = true) :
    ∃ l, limit = some l ∧ 0 < l.toInt := by
  cases limit with
  | none =>
    cases h
    cases hbounded
  | some l =>
    refine ⟨l, rfl, ?_⟩
    by_contra hnot
    have hnever : s.timeToLimit f (some l) now = .ok .never := by
      unfold timeToLimit
      simp only [Option.map_some]
      rw [if_pos]
      simp [not_lt.mp hnot]
    rw [hnever] at h
    cases h
    cases hbounded

/-- The percentage of a size is that of the exact quotient. -/
theorem percentageOf_eq (n : Int) {l : Limit} (hl : l.toInt ≠ 0) :
    (percentageOf n (some l) : Option Float) = some (percentage (n / l.toInt)) := by
  unfold percentageOf
  simp only [Option.map_some]
  rw [if_neg hl, ratio_eq]
  rfl

theorem percentageOf_isSome_iff (n : Int) (limit : Option Limit) :
    (percentageOf n limit : Option Float).isSome = true ↔ ∃ l, limit = some l ∧ l.toInt ≠ 0 := by
  cases limit with
  | none => exact ⟨nofun, nofun⟩
  | some l =>
    by_cases hl : l.toInt = 0
    · have hnone : (percentageOf n (some l) : Option Float) = none := if_pos hl
      rw [hnone]
      exact ⟨nofun, fun ⟨_, hl', hne⟩ => absurd (Option.some.inj hl' ▸ hl) hne⟩
    · rw [percentageOf_eq n hl]
      exact ⟨fun _ => ⟨l, rfl, hl⟩, fun _ => rfl⟩

/-- A quotient of a predicted size stays in the range of the doubles. -/
theorem abs_quotient_lt {n l : Int} (h : s.nextSize f target = some n) (hl : l ≠ 0) : |(n : Rat) / l| < overflow := by
  obtain ⟨hn, hlt⟩ := nextSize_bounds h
  have hone : (1 : Rat) ≤ |(l : Rat)| := by exact_mod_cast Int.one_le_abs hl
  have hcast : (0 : Rat) ≤ n := by exact_mod_cast hn
  rw [abs_div, abs_of_nonneg hcast]
  calc (n : Rat) / |(l : Rat)| ≤ n := div_le_self hcast hone
    _ < overflow := by exact_mod_cast hlt

/-- The percentage of a forecast is that of the exact quotient of the next size and the limit. -/
theorem quotient_of_forecast (hfit : s.model.fit = some f) {l : Limit}
    (h : forecast (some s) (some l) now target = .ok found) (hl : l.toInt ≠ 0) {p : Float}
    (hp : found.percentage = some p) : ∃ n : Int, s.nextSize f target = some n ∧ (0 : Rat) ≤ n ∧
      |(n : Rat) / l.toInt| < overflow ∧ p = percentage (n / l.toInt) := by
  obtain ⟨-, -, hpercentage⟩ := parts_of_forecast hfit h
  rw [hp] at hpercentage
  obtain ⟨n, hn, hp⟩ := Option.bind_eq_some_iff.mp hpercentage.symm
  rw [percentageOf_eq n hl] at hp
  exact ⟨n, hn, by exact_mod_cast (nextSize_bounds hn).1, abs_quotient_lt hn hl, (Option.some.inj hp).symm⟩

theorem percentage_isSome_iff (hfit : s.model.fit = some f) (h : forecast (some s) limit now target = .ok found) :
    found.percentage.isSome = true ↔ found.next.isSome = true ∧ ∃ l, limit = some l ∧ l.toInt ≠ 0 := by
  obtain ⟨-, hnext, hpercentage⟩ := parts_of_forecast hfit h
  rw [hnext, hpercentage]
  cases s.nextSize f target with
  | none => exact ⟨nofun, fun hsome => nomatch hsome.1⟩
  | some n =>
    rw [Option.bind_some, percentageOf_isSome_iff]
    exact (and_iff_right rfl).symm

/-- The only failure of a forecast is a limit that has no finite double. -/
theorem forecast_fails_iff {error : Error} : forecast (some s) limit now target = .error error ↔
    Overflows (some s) limit ∧ error = .integerTooLarge := by
  refine ⟨fun h => ?_, ?_⟩
  · by_cases hoverflows : Overflows (some s) limit
    · rw [forecast_of_overflows hoverflows] at h
      exact ⟨hoverflows, (Except.error.inj h).symm⟩
    · obtain ⟨found, hfound⟩ := exists_forecast hoverflows now target
      cases hfound.symm.trans h
  · rintro ⟨hoverflows, rfl⟩
    exact forecast_of_overflows hoverflows

end Parts

/-- A forecast fails just where the line rises and there is no finite double of the limit. Otherwise the percentage is
present if the next size is and the limit is not zero: also for a negative limit, for which no eta is predicted, and
then it is not positive. For a positive limit it is not negative, and it does not grow with the limit. -/
theorem percentages_follow_limits {s : LiveModel Float} {f : Fit Float} (hfit : s.model.fit = some f)
    (now target : Instant) :
    (∀ limit error, forecast (some s) limit now target = .error error ↔
      Overflows (some s) limit ∧ error = .integerTooLarge) ∧
    (∀ limit found, forecast (some s) limit now target = .ok found →
      (found.percentage.isSome = true ↔ found.next.isSome = true ∧ ∃ l, limit = some l ∧ l.toInt ≠ 0) ∧
      (found.eta.isBounded = true → ∃ l, limit = some l ∧ 0 < l.toInt) ∧
      ∀ l p, limit = some l → found.percentage = some p → (0 < l.toInt → 0 ≤ p) ∧ (l.toInt < 0 → p ≤ 0)) ∧
    ∀ l l' found found', 0 < l.toInt → l.toInt ≤ l'.toInt → forecast (some s) (some l) now target = .ok found →
      forecast (some s) (some l') now target = .ok found' →
        ∀ p p', found.percentage = some p → found'.percentage = some p' → p' ≤ p := by
  refine ⟨fun limit error => forecast_fails_iff, fun limit found h => ⟨percentage_isSome_iff hfit h,
    pos_of_isBounded (parts_of_forecast hfit h).1, ?_⟩, ?_⟩
  · rintro l p rfl hp
    constructor
    · intro hpos
      obtain ⟨n, -, hnonneg, hfinite, rfl⟩ := quotient_of_forecast hfit h hpos.ne' hp
      exact percentage_nonneg hfinite (div_nonneg hnonneg (by exact_mod_cast hpos.le))
    · intro hneg
      obtain ⟨n, -, hnonneg, hfinite, rfl⟩ := quotient_of_forecast hfit h hneg.ne hp
      exact percentage_nonpos hfinite (div_nonpos_of_nonneg_of_nonpos hnonneg (by exact_mod_cast hneg.le))
  · intro l l' found found' hpos hle h h' p p' hp hp'
    obtain ⟨n, hn, hnonneg, hfinite, rfl⟩ := quotient_of_forecast hfit h hpos.ne' hp
    obtain ⟨n', hn', -, hfinite', rfl⟩ := quotient_of_forecast hfit h' (hpos.trans_le hle).ne' hp'
    obtain rfl := Option.some.inj (hn.symm.trans hn')
    have hlimits : (l.toInt : Rat) ≤ l'.toInt := by exact_mod_cast hle
    exact percentage_mono hfinite' hfinite (div_le_div_of_nonneg_left hnonneg (by exact_mod_cast hpos) hlimits)

/-- A queue that has grown from 10 to 20 within a minute, in doubles. -/
def swelling : LiveModel Float :=
  ⟨((Model.fresh .leastSquares true false).learn [0, 60000] [10, 20]).2, ⟨63839663000000000⟩, ⟨63839663060000000⟩⟩

/-- A limit of -100 has a percentage, though no eta is predicted for it. -/
theorem negative_limit_has_percentage : ∃ found,
    forecast (some swelling) (some (.amount (-100))) ⟨63839663060000000⟩ ⟨63839663420000000⟩ = .ok found ∧
      found.eta.isBounded = false ∧ found.percentage.isSome = true ∧ ∀ p, found.percentage = some p → p ≤ 0 := by
  obtain ⟨f, hf⟩ := Option.isSome_iff_exists.mp (show swelling.model.fit.isSome = true by decide +kernel)
  obtain ⟨-, hparts, -⟩ := percentages_follow_limits hf ⟨63839663060000000⟩ ⟨63839663420000000⟩
  have hshown : (forecast (some swelling) (some (.amount (-100))) ⟨63839663060000000⟩ ⟨63839663420000000⟩).map
      (fun found => (found.eta.isBounded, found.next)) = .ok (false, some 80) := by decide +kernel
  cases hforecast : forecast (some swelling) (some (.amount (-100))) ⟨63839663060000000⟩ ⟨63839663420000000⟩ with
  | error e =>
    rw [hforecast] at hshown
    cases hshown
  | ok found =>
    rw [hforecast] at hshown
    obtain ⟨heta, hnext⟩ := Prod.mk.inj (Except.ok.inj hshown)
    obtain ⟨hpresent, -, hsign⟩ := hparts _ found hforecast
    exact ⟨found, rfl, heta, hpresent.mpr ⟨by rw [hnext]; rfl, _, rfl, by decide⟩,
      fun p hp => (hsign _ p rfl hp).2 (by decide)⟩

end LiveModel

end Backpressure
