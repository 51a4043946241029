import Backpressure.Number.Scalar
import Backpressure.Text.Numeral

/-!
# Values as a message or a table cell holds them

* `Reading` : a number, a text, a flag or nothing;
* `Reading.toInt`, `toReal` : the number read from it;
* `Reading.text` : its text.
-/

namespace Backpressure
open Number

/-- A value as a message or a table cell holds it. -/
inductive Reading where
  | whole (n : Int)
  | real (x : Float)
  | text (s : String)
  | flag (b : Bool)
  | missing

/-- The integer nearest to a number, of two equally near the even one. -/
def roundToInt {K : Type} [Scalar K] (x : K) : Except Error Int :=
  if Scalar.isNaN x then .error .nanToInteger
  else if Scalar.isFinite x then .ok (Scalar.round x)
  else .error .infinityToInteger

/-- The number nearest to an integer, if there is a finite one. -/
def numberOfInt {K : Type} [Scalar K] (n : Int) : Except Error K :=
  let x : K := Arithmetic.ofInt n
  if Scalar.isFinite x then .ok x else .error .integerTooLarge

/-- The integer part of a double. -/
def truncateToInt (x : Float) : Except Error Int :=
  if x.isNaN then .error .nanToInteger
  else if x.isFinite then .ok (truncate (Binary64.exact x))
  else .error .infinityToInteger

namespace Reading

/-- The integer read from a value: a number loses its fraction, a text is read as a numeral. -/
def toInt : Reading → Except Error Int
  | whole n => .ok n
  | real x => truncateToInt x
  | text s => Text.readInteger s
  | flag b => .ok (if b then 1 else 0)
  | missing => .error .missingNumber

def toReal : Reading → Except Error Float
  | whole n => numberOfInt n
  | real x => .ok x
  | text s => Text.readReal s
  | flag b => .ok (if b then 1 else 0)
  | missing => .error .missingNumber

def toText : Reading → String
  | whole n => toString n
  | real x => Decimal.shortest x
  | text s => s
  | flag b => if b then "True" else "False"
  | missing => "None"

end Reading

end Backpressure
