import Backpressure.Forecast

/-!
# What an engine asks of its surroundings

* `Fetch` : what becomes of asking for a series: an answer at once, or one that takes its time;
* `Fetch.within?` : the answer if it is there within a number of seconds;
* `Sources` : the threshold lookup, the history, the two clocks and the model kinds, as they are during one call.
-/

namespace Backpressure
open Time Trend

/-- What becomes of asking for a series. -/
inductive Fetch (K : Type) where
  /-- Answered before anyone waits for it. -/
  | finished (answer : Except Error (Series K))
  /-- Answered after so many seconds of waiting. -/
  | running (seconds : K) (answer : Except Error (Series K))

namespace Fetch

variable {K : Type}

/-- What a fetch is answered with in the end. -/
def answer : Fetch K → Except Error (Series K)
  | finished answer | running _ answer => answer

def isFinished : Fetch K → Bool
  | finished _ => true
  | running _ _ => false

/-- The answer of a fetch, if it is there within a number of seconds. -/
def within? [Number.Scalar K] (timeout : K) : Fetch K → Option (Except Error (Series K))
  | finished answer => some answer
  | running seconds answer => if Number.Scalar.lt seconds timeout then some answer else none

end Fetch

/-- The surroundings of an engine during one call. -/
structure Sources (K : Type) where
  thresholds : String → Except Error Thresholds
  history : String → Metric → Lookback → Fetch K
  clock : Timestamp
  /-- Seconds of a clock that is never set back. -/
  monotonic : K
  registry : Registry K

end Backpressure
