import Backpressure.Proofs.Exact

/-!
# The two forecasts of a queue

* `Eta.lt_of_ofInt_lt`, `Eta.lt_of_lt_ofInt` : a rounded eta and the time that it stands for are on one side of a whole
  number;
* `LiveModel.sizeAt` : the size that is shown for a target time, `limit_le_sizeAt`, `sizeAt_le_limit` : on which side of
  the limit it is;
* `LiveModel.forecasts_agree` : the eta says that the limit is reached before the target time only where that size has
  reached it, and that it is reached afterwards only where the size is not above it.
-/

namespace Backpressure
open Number Time Trend

/-! ## Rounded etas -/

/-- A time that is rounded to less than a whole number of milliseconds is less than that. -/
theorem Eta.lt_of_ofInt_lt {remaining : Rat} {n k : Int} (h : (Eta.ofInt (roundEven remaining)).millis = some n)
    (hlt : n < k) : remaining < k := by
  have hn : max 1 (roundEven remaining) = n := Option.some.inj h
  by_contra hle
  have := le_roundEven (not_lt.mp hle)
  omega

/-- A positive time that is rounded to more than a whole number of milliseconds is more than that. -/
theorem Eta.lt_of_lt_ofInt {remaining : Rat} (hpos : 0 < remaining) {n k : Int}
    (h : (Eta.ofInt (roundEven remaining)).millis = some n) (hlt : k < n) : k < remaining := by
  have hn : max 1 (roundEven remaining) = n := Option.some.inj h
  by_contra hle
  have hround := roundEven_le (not_lt.mp hle)
  have hk : 0 < k := by exact_mod_cast hpos.trans_le (not_lt.mp hle)
  omega

/-! ## Percentages -/

theorem hundred_le_percentage {limit size : Int} (hlimit : 0 < limit) (h : limit ≤ size) :
    (100 : Rat) ≤ (size : Rat) / limit * 100 := by
  have hone : (1 : Rat) ≤ (size : Rat) / limit := (one_le_div₀ (by exact_mod_cast hlimit)).mpr (by exact_mod_cast h)
  linarith

theorem percentage_le_hundred {limit size : Int} (hlimit : 0 < limit) (h : size ≤ limit) :
    (size : Rat) / limit * 100 ≤ 100 := by
  have hone : (size : Rat) / limit ≤ 1 := (div_le_one₀ (by exact_mod_cast hlimit)).mpr (by exact_mod_cast h)
  linarith

namespace LiveModel

/-! ## Sizes at a target time -/

variable {s : LiveModel Rat} {f : Fit Rat} {limit : Limit} {now target : Instant} {minutes : Int}

/-- The size at a target time, rounded; a queue has no negative size. -/
def sizeAt (s : LiveModel Rat) (f : Fit Rat) (target : Instant) : Int :=
  max 0 (roundEven (f.height (s.origin.millisTo target)))

theorem forecast_rat (hfit : s.model.fit = some f) (hlimit : 0 < limit.toInt) {eta : Eta}
    (heta : s.timeToLimit f (some limit) now = .ok eta) : forecast (some s) (some limit) now target =
      .ok ⟨eta, some (s.sizeAt f target), some ((s.sizeAt f target : Rat) / limit.toInt * 100)⟩ := by
  have hpercentage : (percentageOf (s.sizeAt f target) (some limit) : Option Rat) =
      some ((s.sizeAt f target : Rat) / limit.toInt * 100) := by
    unfold percentageOf
    simp only [Option.map_some]
    rw [if_neg (by omega), ofInt_rat]
    rfl
  unfold forecast
  simp only [hfit]
  unfold forecastFrom
  rw [heta]
  show Except.ok (Forecast.mk eta (some (s.sizeAt f target)) (percentageOf (s.sizeAt f target) (some limit))) = _
  rw [hpercentage]

theorem limit_le_sizeAt (hrises : f.Rises) (htarget : now.later minutes = .ok target)
    (h : s.remaining f limit.toInt now ≤ ((60000 * minutes : Int) : Rat)) : limit.toInt ≤ s.sizeAt f target := by
  have hplace : ((limit.toInt : Rat) - f.line.intercept) / f.line.slope ≤ s.origin.millisTo target := by
    rw [Instant.millisTo_later htarget]
    unfold remaining at h
    linarith
  have := le_roundEven ((Line.le_height_iff hrises.slope).mpr hplace)
  exact this.trans (Int.le_max_right _ _)

theorem sizeAt_le_limit (hrises : f.Rises) (hlimit : 0 < limit.toInt) (htarget : now.later minutes = .ok target)
    (h : ((60000 * minutes : Int) : Rat) ≤ s.remaining f limit.toInt now) : s.sizeAt f target ≤ limit.toInt := by
  have hplace : s.origin.millisTo target ≤ ((limit.toInt : Rat) - f.line.intercept) / f.line.slope := by
    rw [Instant.millisTo_later htarget]
    unfold remaining at h
    linarith
  have := roundEven_le ((Line.height_le_iff hrises.slope).mpr hplace)
  exact max_le hlimit.le this

/-- The eta of a limit and the size at the target agree on whether the limit is reached by then. -/
theorem forecasts_agree (hfit : s.model.fit = some f) (hlimit : 0 < limit.toInt)
    (htarget : now.later minutes = .ok target) : ∃ eta next percentage,
      forecast (some s) (some limit) now target = .ok ⟨eta, some next, some percentage⟩ ∧
      (∀ n, eta.millis = some n → n < 60000 * minutes → limit.toInt ≤ next ∧ 100 ≤ percentage) ∧
      (∀ n, eta.millis = some n → 60000 * minutes < n → next ≤ limit.toInt ∧ percentage ≤ 100) ∧
      (f.degenerate = false → 0 < f.line.slope → eta = .never → 0 ≤ 60000 * minutes → limit.toInt ≤ next) := by
  by_cases hrises : f.Rises
  · refine ⟨_, _, _, forecast_rat hfit hlimit (timeToLimit_of_rises hlimit hrises), ?_, ?_, ?_⟩
    · intro n hn hlt
      split at hn
      · have hle := limit_le_sizeAt hrises htarget (Eta.lt_of_ofInt_lt hn hlt).le
        exact ⟨hle, hundred_le_percentage hlimit hle⟩
      · cases hn
    · intro n hn hlt
      split at hn
      · next hpos =>
        have hle := sizeAt_le_limit hrises hlimit htarget (Eta.lt_of_lt_ofInt hpos hn hlt).le
        exact ⟨hle, percentage_le_hundred hlimit hle⟩
      · cases hn
    · intro _ _ hnever hhorizon
      split at hnever
      · cases hnever
      · next hpast =>
        refine limit_le_sizeAt hrises htarget ((not_lt.mp hpast).trans ?_)
        exact_mod_cast hhorizon
  · refine ⟨_, _, _, forecast_rat hfit hlimit (timeToLimit_of_not_rises hrises), ?_, ?_, ?_⟩
    · intro n hn
      cases hn
    · intro n hn
      cases hn
    · exact fun hproper hslope => absurd ⟨hproper, hslope⟩ hrises

/-- A queue that has grown from 10 to 20 within a minute. -/
def filling : LiveModel Rat :=
  ⟨((Model.fresh .leastSquares true false).learn [0, 60000] [10, 20]).2, ⟨63839663000000000⟩, ⟨63839663060000000⟩⟩

/-- It reaches 40 two minutes later, which the size five minutes later agrees with. -/
theorem forecasts_of_filling_agree : ∃ target, (⟨63839663060000000⟩ : Instant).later 5 = .ok target ∧
    ∃ eta next percentage, forecast (some filling) (some (.amount 40)) ⟨63839663060000000⟩ target =
        .ok ⟨eta, some next, some percentage⟩ ∧
      eta.millis = some 120000 ∧ 40 ≤ next ∧ 100 ≤ percentage := by
  obtain ⟨f, hf⟩ := Option.isSome_iff_exists.mp (show filling.model.fit.isSome = true by decide +kernel)
  have htarget : (⟨63839663060000000⟩ : Instant).later 5 = .ok ⟨63839663360000000⟩ := by decide +kernel
  obtain ⟨eta, next, percentage, hforecast, hbefore, -⟩ :=
    forecasts_agree hf (show 0 < (Limit.amount 40).toInt by decide) htarget
  have hshown : (forecast (some filling) (some (.amount 40)) ⟨63839663060000000⟩ ⟨63839663360000000⟩).map
      (·.eta.millis) = .ok (some 120000) := by decide +kernel
  rw [hforecast] at hshown
  have heta : eta.millis = some 120000 := Except.ok.inj hshown
  exact ⟨_, htarget, eta, next, percentage, hforecast, heta, hbefore _ heta (by decide)⟩

end LiveModel

end Backpressure
