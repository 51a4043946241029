import Backpressure.Proofs.Horizon

/-!
# The first crossing of a limit

* `roundEven_error` : a rounded number is within one half of the number, `Eta.millis_error` : so is an eta of half a
  millisecond or more, and every eta is within one millisecond of the time that it stands for;
* `LiveModel.Ahead` : a positive limit which a rising line has not reached yet, `timeToLimit_of_ahead`,
  `timeToLimit_of_not_ahead` : what the eta of a limit is with it and without it;
* `LiveModel.height_sub_limit` : how far the line is from the limit at another time than that of the crossing;
* `LiveModel.eta_is_first_crossing` : an eta is predicted for the limits ahead and for no others, and at the time that
  it predicts the line has just about reached the limit.
-/

namespace Backpressure
open Number Time Trend

/-! ## Rounding errors -/

theorem Number.roundDiv_error {n : Int} {d : Nat} (hd : 0 < d) : |2 * (roundDiv n d * d - n)| ≤ d := by
  have hdiv : n / (d : Int) * d + n % d = n := Int.ediv_mul_add_emod n d
  have hrest : 0 ≤ n % (d : Int) := Int.emod_nonneg n (by omega)
  have hlt : n % (d : Int) < d := Int.emod_lt_of_pos n (by omega)
  have hnext : (n / (d : Int) + 1) * d = n / (d : Int) * d + d := add_one_mul _ _
  rw [abs_le]
  unfold roundDiv
  dsimp only
  split
  · omega
  · split
    · omega
    · split <;> omega

/-- A rounded number is within one half of the number. -/
theorem Number.roundEven_error (q : Rat) : |(roundEven q : Rat) - q| ≤ 1 / 2 := by
  have hden : (0 : Rat) < q.den := by exact_mod_cast q.den_pos
  have herror : |2 * ((roundEven q : Rat) * q.den - q.num)| ≤ q.den := by
    exact_mod_cast roundDiv_error (n := q.num) q.den_pos
  have hscaled : 2 * ((roundEven q : Rat) * q.den - q.num) = 2 * q.den * (roundEven q - q) := by
    have hnum : (q.num : Rat) = q * q.den := (Rat.mul_den_eq_num q).symm
    rw [hnum]
    ring
  rw [hscaled, abs_mul, abs_of_pos (by linarith)] at herror
  rw [le_div_iff₀ (by norm_num)]
  refine le_of_mul_le_mul_left ?_ hden
  linarith

/-- A predicted time is within one millisecond of the time that it stands for, and within one half if that is so much. -/
theorem Eta.millis_error {remaining : Rat} (hpos : 0 < remaining) {n : Int}
    (h : (Eta.ofInt (roundEven remaining)).millis = some n) :
    |(n : Rat) - remaining| < 1 ∧ (1 / 2 ≤ remaining → |(n : Rat) - remaining| ≤ 1 / 2) := by
  have hn : max 1 (roundEven remaining) = n := Option.some.inj h
  have herror := roundEven_error remaining
  rcases le_total 1 (roundEven remaining) with hone | hone
  · rw [max_eq_right hone] at hn
    subst hn
    exact ⟨by linarith, fun _ => herror⟩
  · -- The least eta stands for a time that is rounded to less, and so is at most one and a half.
    rw [max_eq_left hone] at hn
    subst hn
    have hround : (roundEven remaining : Rat) ≤ 1 := by exact_mod_cast hone
    rw [abs_le] at herror
    rw [abs_lt, abs_le]
    push_cast
    refine ⟨⟨by linarith, by linarith⟩, fun hhalf => ⟨by linarith, by linarith⟩⟩

/-! ## Instants some milliseconds away -/

namespace Time.Instant

/-- The instant some milliseconds after another. -/
def afterMillis (t : Instant) (n : Int) : Instant := ⟨t.micros + 1000 * n⟩

theorem millisTo_afterMillis (origin t : Instant) (n : Int) :
    (origin.millisTo (t.afterMillis n) : Rat) = origin.millisTo t + n := by
  rw [millisTo_rat, millisTo_rat]
  unfold afterMillis
  push_cast
  ring

end Time.Instant

namespace LiveModel

variable {s : LiveModel Rat} {f : Fit Rat} {limit : Option Limit} {l : Limit} {now : Instant}

/-! ## Limits ahead -/

/-- A positive limit which the line of a fit rises to, and which it is still below. -/
structure Ahead (s : LiveModel Rat) (f : Fit Rat) (now : Instant) (l : Limit) : Prop where
  positive : 0 < l.toInt
  proper : f.degenerate = false
  slope : 0 < f.line.slope
  below : f.height (s.origin.millisTo now) < l.toInt

theorem Ahead.rises (h : s.Ahead f now l) : f.Rises := ⟨h.proper, h.slope⟩

/-- The line is below a size as long as there is time remaining until it reaches the size. -/
theorem remaining_pos_iff (h : f.Rises) {size : Rat} :
    0 < s.remaining f size now ↔ f.height (s.origin.millisTo now) < size := by
  unfold remaining Fit.height
  rw [sub_pos, ← not_le, ← not_le, Line.le_height_iff h.slope]

theorem timeToLimit_of_ahead (h : s.Ahead f now l) :
    s.timeToLimit f (some l) now = .ok (.ofInt (roundEven (s.remaining f l.toInt now))) := by
  rw [timeToLimit_of_rises h.positive h.rises, if_pos ((remaining_pos_iff h.rises).mpr h.below)]

theorem timeToLimit_of_not_ahead (h : ∀ l, limit = some l → ¬ s.Ahead f now l) :
    s.timeToLimit f limit now = .ok .never := by
  cases limit with
  | none => rfl
  | some l =>
    by_cases hpositive : 0 < l.toInt
    · by_cases hrises : f.Rises
      · have hreached : ¬ 0 < s.remaining f l.toInt now := fun hremaining =>
          h l rfl ⟨hpositive, hrises.proper, hrises.slope, (remaining_pos_iff hrises).mp hremaining⟩
        rw [timeToLimit_of_rises hpositive hrises, if_neg hreached]
      · exact timeToLimit_of_not_rises hrises
    · unfold timeToLimit
      simp [not_lt.mp hpositive]

/-! ## The line at the time of an eta -/

/-- The line reaches a size when the time remaining has passed. -/
theorem height_add_remaining (hslope : f.line.slope ≠ 0) (size : Rat) :
    f.height (s.origin.millisTo now + s.remaining f size now) = size := by
  unfold remaining Fit.height
  rw [Line.height_rat, add_sub_cancel, mul_div_cancel₀ _ hslope, sub_add_cancel]

/-- Some milliseconds later, the line is as far from a size as it moves within the difference to the time remaining. -/
theorem height_sub_limit (hslope : f.line.slope ≠ 0) (size : Rat) (n : Int) :
    f.height (s.origin.millisTo (now.afterMillis n)) - size = f.line.slope * (n - s.remaining f size now) := by
  have hreached : f.height (s.origin.millisTo now + s.remaining f size now) = size := height_add_remaining hslope size
  unfold Fit.height at *
  rw [Line.height_rat] at *
  rw [Instant.millisTo_afterMillis]
  linarith

theorem exists_forecast_of_timeToLimit (hfit : s.model.fit = some f) {eta : Eta}
    (heta : s.timeToLimit f limit now = .ok eta) (target : Instant) :
    ∃ forecast, LiveModel.forecast (some s) limit now target = .ok forecast ∧ forecast.eta = eta := by
  unfold LiveModel.forecast
  simp only [hfit]
  unfold forecastFrom
  rw [heta]
  exact ⟨_, rfl, rfl⟩

/-- An eta is predicted for a limit ahead, and is never for all others. The time that it predicts is that of the
crossing, rounded: the line is then within half of its slope of the limit, or within its slope if the crossing is less
than half a millisecond away. -/
theorem eta_is_first_crossing (hfit : s.model.fit = some f) (limit : Option Limit) (now target : Instant) :
    ∃ forecast, LiveModel.forecast (some s) limit now target = .ok forecast ∧
      ((∃ n positive, forecast.eta = .predicted n positive) ↔ ∃ l, limit = some l ∧ s.Ahead f now l) ∧
      (forecast.eta = .never ↔ ¬ ∃ l, limit = some l ∧ s.Ahead f now l) ∧
      ∀ n l, forecast.eta.millis = some n → limit = some l →
        f.height (s.origin.millisTo now + s.remaining f l.toInt now) = l.toInt ∧
        |f.height (s.origin.millisTo (now.afterMillis n)) - l.toInt| < f.line.slope ∧
        (1 / 2 ≤ s.remaining f l.toInt now →
          |f.height (s.origin.millisTo (now.afterMillis n)) - l.toInt| ≤ f.line.slope / 2) := by
  by_cases hahead : ∃ l, limit = some l ∧ s.Ahead f now l
  · obtain ⟨l, rfl, h⟩ := id hahead
    have hslope := h.slope
    obtain ⟨forecast, hforecast, heta⟩ := exists_forecast_of_timeToLimit hfit (timeToLimit_of_ahead h) target
    refine ⟨forecast, hforecast, ?_, ?_, ?_⟩
    · exact ⟨fun _ => hahead, fun _ => ⟨_, _, heta⟩⟩
    · rw [heta]
      exact ⟨nofun, fun hnot => absurd hahead hnot⟩
    · rintro n _ hn ⟨⟩
      rw [heta] at hn
      obtain ⟨hone, hhalf⟩ := Eta.millis_error ((remaining_pos_iff h.rises).mpr h.below) hn
      rw [height_sub_limit hslope.ne', abs_mul, abs_of_pos hslope]
      refine ⟨height_add_remaining hslope.ne' _, ?_, fun hremaining => ?_⟩
      · exact mul_lt_of_lt_one_right hslope hone
      · have := mul_le_mul_of_nonneg_left (hhalf hremaining) hslope.le
        linarith
  · obtain ⟨forecast, hforecast, heta⟩ := exists_forecast_of_timeToLimit hfit
      (timeToLimit_of_not_ahead fun l hlimit h => hahead ⟨l, hlimit, h⟩) target
    refine ⟨forecast, hforecast, ?_, ⟨fun _ => hahead, fun _ => heta⟩, ?_⟩
    · rw [heta]
      exact ⟨nofun, fun h => absurd h hahead⟩
    · intro n _ hn
      rw [heta] at hn
      cases hn

/-- Three tenths of a millisecond before the line of `filling` reaches 40, the eta is a whole millisecond. -/
theorem eta_of_filling_is_first_crossing :
    let now : Instant := ⟨63839663179999700⟩
    ∃ f forecast, filling.model.fit = some f ∧
      LiveModel.forecast (some filling) (some (.amount 40)) now now = .ok forecast ∧ forecast.eta.millis = some 1 ∧
      |f.height (filling.origin.millisTo (now.afterMillis 1)) - 40| < f.line.slope := by
  intro now
  obtain ⟨f, hf⟩ := Option.isSome_iff_exists.mp (show filling.model.fit.isSome = true by decide +kernel)
  obtain ⟨forecast, hforecast, -, -, herror⟩ := eta_is_first_crossing hf (some (.amount 40)) now now
  have hshown : (LiveModel.forecast (some filling) (some (.amount 40)) now now).map (·.eta.millis) =
      .ok (some 1) := by decide +kernel
  rw [hforecast] at hshown
  have heta : forecast.eta.millis = some 1 := Except.ok.inj hshown
  exact ⟨f, forecast, hf, hforecast, heta, (herror 1 (.amount 40) heta rfl).2.1⟩

end LiveModel

end Backpressure
