/-!
# The calendar

Days are counted from 1 January of year 1, which is day 0, in the Gregorian calendar.

* `daysBeforeYear`, `daysBeforeMonth` : the days before a year, and within a year before a month;
* `dayNumber` : the day of a date;
* `Date.ofDay` : the date of a day.
-/

namespace Backpressure.Time

/-- Whether a year has 366 days. -/
def isLeapYear (year : Nat) : Bool := year % 4 == 0 && (year % 100 != 0 || year % 400 == 0)

/-- The lengths of the months of a year. -/
def monthLengths (year : Nat) : List Nat :=
  [31, if isLeapYear year then 29 else 28, 31, 30, 31, 30, 31, 31, 30, 31, 30, 31]

/-- The days before 1 January of a year. -/
def daysBeforeYear (year : Nat) : Nat :=
  let y := year - 1
  365 * y + y / 4 - y / 100 + y / 400

/-- The days of a year before the first of a month. -/
def daysBeforeMonth (year month : Nat) : Nat := ((monthLengths year).take (month - 1)).foldl (· + ·) 0

/-- A date of the Gregorian calendar. -/
structure Date where
  year : Nat
  month : Nat
  day : Nat
  deriving DecidableEq, Repr

namespace Date

/-- Whether the month and the day exist. -/
def isValid (d : Date) : Bool :=
  1 ≤ d.year && 1 ≤ d.month && d.month ≤ 12 && 1 ≤ d.day && d.day ≤ (monthLengths d.year).getD (d.month - 1) 0

def toDay (d : Date) : Nat := daysBeforeYear d.year + daysBeforeMonth d.year d.month + (d.day - 1)

/-- The month that holds a day of the year, counted from `month`, and the day of that month, from 1. -/
def findMonth (month : Nat) : List Nat → Nat → Nat × Nat
  | [], day => (month, day + 1)
  | length :: rest, day => if day < length then (month, day + 1) else findMonth (month + 1) rest (day - length)

def ofDay (day : Nat) : Date :=
  let n400 := day / 146097
  let r := day % 146097
  let n100 := min 3 (r / 36524)
  let r := r - n100 * 36524
  let n4 := r / 1461
  let r := r % 1461
  let n1 := min 3 (r / 365)
  let year := 400 * n400 + 100 * n100 + 4 * n4 + n1 + 1
  let (month, dayOfMonth) := findMonth 1 (monthLengths year) (r - n1 * 365)
  ⟨year, month, dayOfMonth⟩

end Date

end Backpressure.Time
