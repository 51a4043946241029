import Mathlib.Tactic.Linarith
import Mathlib.Tactic.Ring
import Mathlib.Data.Rat.Cast.Order
import Backpressure.Forecast
import Backpressure.Proofs.Nearest
import Backpressure.Proofs.Outcome

/-!
# Forecasts without rounding

* the instance of `Rat` : forecasts with exact arithmetic, in which only what is shown is rounded;
* `roundEven_le`, `le_roundEven` : how a rounded number compares with an integer;
* `Line.height_le_iff`, `le_height_iff` : on which side of its crossing with a height a rising line is below it;
* `Instant.millisTo_later` : a minute has 60000 milliseconds;
* `LiveModel.remaining` : the time until the line reaches a size, `timeToLimit_of_rises`, `timeToLimit_of_not_rises` :
  what the eta of a limit is with it, and without a line that rises.
-/

namespace Backpressure
open Number Time Trend

/-! ## Rational numbers as scalars -/

namespace Number

/-- A rational number as a quotient. -/
def quotientText (q : Rat) : String := toString q.num ++ "/" ++ toString q.den

/-- A rational number with one digit after the point. -/
def tenthsText (q : Rat) : String :=
  let n := roundEven (10 * q)
  (if n < 0 then "-" else "") ++ toString (n.natAbs / 10) ++ "." ++ toString (n.natAbs % 10)

/-- Nothing is infinite here, and no operation rounds but the square root, which is exact for squares. -/
instance : Scalar Rat where
  lt x y := x < y
  eq x y := x == y
  isFinite _ := true
  round := roundEven
  sqrt q := mkRat (q.num.natAbs * q.den).sqrt q.den
  text := quotientText
  tenths := tenthsText
  leastSquares := Line.leastSquares

@[simp] theorem ofInt_rat (n : Int) : (Arithmetic.ofInt n : Rat) = n := by
  show (n : Rat) / ((1 : Int) : Rat) = n
  simp

@[simp] theorem lt_rat (x y : Rat) : Scalar.lt x y = decide (x < y) := rfl

@[simp] theorem eq_rat (x y : Rat) : Scalar.eq x y = decide (x = y) := rfl

@[simp] theorem isFinite_rat (x : Rat) : Scalar.isFinite x = true := rfl

@[simp] theorem zero_rat : (Scalar.zero : Rat) = 0 := ofInt_rat 0

theorem roundEven_le {q : Rat} {k : Int} (h : q ≤ k) : roundEven q ≤ k := by
  refine roundDiv_le q.den_pos ?_
  rw [← q.num_div_den, div_le_iff₀ (by exact_mod_cast q.den_pos)] at h
  exact_mod_cast h

theorem le_roundEven {q : Rat} {k : Int} (h : (k : Rat) ≤ q) : k ≤ roundEven q := by
  refine le_roundDiv q.den_pos ?_
  rw [← q.num_div_den, le_div_iff₀ (by exact_mod_cast q.den_pos)] at h
  exact_mod_cast h

end Number

/-! ## Lines -/

namespace Trend

namespace Line

variable {l : Line Rat}

theorem height_rat (l : Line Rat) (x : Rat) : l.height x = l.slope * x + l.intercept := rfl

/-- A rising line is not above a height up to the place where it crosses it. -/
theorem height_le_iff (hslope : 0 < l.slope) {x y : Rat} : l.height x ≤ y ↔ x ≤ (y - l.intercept) / l.slope := by
  rw [height_rat, le_div_iff₀ hslope, mul_comm x]
  constructor <;> intro h <;> linarith

/-- It is not below the height from that place on. -/
theorem le_height_iff (hslope : 0 < l.slope) {x y : Rat} : y ≤ l.height x ↔ (y - l.intercept) / l.slope ≤ x := by
  rw [height_rat, div_le_iff₀ hslope, mul_comm x]
  constructor <;> intro h <;> linarith

end Line

/-- A fit whose line rises. -/
structure Fit.Rises (f : Fit Rat) : Prop where
  proper : f.degenerate = false
  slope : 0 < f.line.slope

theorem Fit.Rises.crossing {f : Fit Rat} (h : f.Rises) (y : Rat) :
    f.crossing y = .ok ((y - f.line.intercept) / f.line.slope) := by
  have hslope : f.line.slope ≠ 0 := ne_of_gt h.slope
  unfold Fit.crossing
  rw [h.proper]
  simp [hslope]

end Trend

/-! ## Forecasts -/

theorem Time.Instant.millisTo_rat (origin t : Instant) :
    (origin.millisTo t : Rat) = ((t.micros - origin.micros : Int) : Rat) / 1000 := by
  show ((t.micros - origin.micros : Int) : Rat) / ((1000000 : Int) : Rat) * (Arithmetic.ofInt 1000 : Rat) = _
  rw [ofInt_rat]
  push_cast
  ring

/-- A minute has 60000 milliseconds. -/
theorem Time.Instant.millisTo_later {origin t u : Instant} {minutes : Int} (h : t.later minutes = .ok u) :
    (origin.millisTo u : Rat) = origin.millisTo t + ((60000 * minutes : Int) : Rat) := by
  rw [millisTo_rat, millisTo_rat, (later_eq_ok h).2]
  unfold microsPerMinute
  push_cast
  ring

theorem Eta.inMillis_rat (x : Rat) : Eta.inMillis x = .ok (Eta.ofInt (roundEven x)) := by
  unfold Eta.inMillis roundToInt Scalar.isNaN
  simp
  rfl

namespace LiveModel

variable {s : LiveModel Rat} {f : Fit Rat} {limit : Limit} {now : Instant}

/-- The time from now until the line reaches a size, negative where that lies in the past. -/
def remaining (s : LiveModel Rat) (f : Fit Rat) (size : Rat) (now : Instant) : Rat :=
  (size - f.line.intercept) / f.line.slope - s.origin.millisTo now

theorem timeToLimit_of_rises (hlimit : 0 < limit.toInt) (h : f.Rises) : s.timeToLimit f (some limit) now = .ok
    (if 0 < s.remaining f limit.toInt now then .ofInt (roundEven (s.remaining f limit.toInt now)) else .never) := by
  have hguard : (decide (limit.toInt ≤ 0) || f.degenerate || !Scalar.lt Scalar.zero f.line.slope) = false := by
    simp [h.proper, h.slope, hlimit]
  unfold timeToLimit
  simp only [Option.map_some]
  rw [if_neg (by rw [hguard]; nofun), (numberOfInt_eq_ok (K := Rat)).mpr ⟨rfl, rfl⟩, ofInt_rat]
  simp only [bind, Except.bind]
  rw [h.crossing]
  simp only [isFinite_rat, lt_rat, zero_rat, Bool.true_and, decide_eq_true_eq, Eta.inMillis_rat]
  show (if 0 < s.remaining f limit.toInt now then _ else _) = _
  split <;> rfl

theorem timeToLimit_of_not_rises (h : ¬ f.Rises) : s.timeToLimit f (some limit) now = .ok .never := by
  have hguard : (decide (limit.toInt ≤ 0) || f.degenerate || !Scalar.lt Scalar.zero f.line.slope) = true := by
    by_contra hnot
    simp only [Bool.not_eq_true, Bool.or_eq_false_iff, Bool.not_eq_false', lt_rat, zero_rat, decide_eq_true_eq] at hnot
    exact h ⟨hnot.1.2, hnot.2⟩
  unfold timeToLimit
  simp only [Option.map_some]
  rw [if_pos hguard]

end LiveModel

end Backpressure
