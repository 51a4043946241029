import Backpressure.Error
import Backpressure.Number.Scalar

/-!
# Waiting for a number of seconds

* `overflowsClock` : whether the clock, which counts nanoseconds in 64 bits, cannot count a number of seconds;
* `pause` : what sleeping for a number of seconds comes to;
* `cannotWait` : whether waiting for something that has not happened yet fails. Who waits for no positive number of
  seconds does not wait.
-/

namespace Backpressure.Time
open Number

variable {K : Type} [Scalar K]

/-- Whether the clock cannot count a number of seconds. -/
def overflowsClock (seconds : K) : Bool :=
  let nanos := seconds * Arithmetic.ofInt 1000000000
  !Scalar.lt nanos (Arithmetic.ofInt (twoTo 63 : Nat)) || Scalar.lt nanos (Arithmetic.ofInt (-(twoTo 63 : Nat)))

/-- What sleeping for a number of seconds comes to. -/
def pause (seconds : K) : Except Error Unit :=
  if Scalar.isNaN seconds then .error .sleepUndefined
  else if overflowsClock seconds then .error .clockOverflow
  else if Scalar.lt seconds Scalar.zero then .error .sleepNegative
  else .ok ()

/-- Whether waiting for at most so many seconds fails. -/
def cannotWait (seconds : K) : Bool := Scalar.lt Scalar.zero seconds && overflowsClock seconds

end Backpressure.Time
