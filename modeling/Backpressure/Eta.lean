import Backpressure.Reading

/-!
# The time to backpressure

* `Eta` : a number of milliseconds, never, or not known for want of data; a predicted number is positive;
* `Eta.inMillis` : the nearest whole number of milliseconds, at least one;
* `Eta.ofStatus` : an eta from the name of its status and its milliseconds;
* `Eta.text` : `420000ms`, or the name of the status.
-/

namespace Backpressure
open Number

/-- The time until a queue reaches its limit. -/
inductive Eta where
  | predicted (millis : Int) (positive : 0 < millis)
  | never
  | insufficientData
  deriving DecidableEq, Repr

namespace Eta

def status : Eta → String
  | predicted _ _ => "predicted"
  | never => "never"
  | insufficientData => "insufficient_data"

def millis : Eta → Option Int
  | predicted n _ => some n
  | _ => none

def isBounded (e : Eta) : Bool := e.millis.isSome

/-- A prediction of a whole number of milliseconds, at least one. -/
def ofInt (n : Int) : Eta := predicted (max 1 n) (by omega)

/-- A prediction of the nearest whole number of milliseconds, at least one. -/
def inMillis {K : Type} [Scalar K] (x : K) : Except Error Eta := (roundToInt x).map ofInt

/-- The eta of a status and its milliseconds: only a prediction carries them, and it carries a positive number. -/
def ofStatus (status : String) (millis : Option Int) : Except Error Eta :=
  let without (e : Eta) : Except Error Eta :=
    match millis with
    | none => .ok e
    | some _ => .error (.etaCarriesMillis status)
  if status = "predicted" then
    match millis with
    | some n => if h : 0 < n then .ok (predicted n h) else .error .etaNeedsMillis
    | none => .error .etaNeedsMillis
  else if status = "never" then without never
  else if status = "insufficient_data" then without insufficientData
  else .error (.unknownEtaStatus status)

def text : Eta → String
  | predicted n _ => toString n ++ "ms"
  | e => e.status

end Eta

end Backpressure
