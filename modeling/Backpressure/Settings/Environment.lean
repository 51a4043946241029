import Backpressure.Text.CharClass
import Backpressure.Text.Lowercase
import Backpressure.Text.Numeral

/-!
# Environment variables

* `Environment` : variables by name, the first of a name counts;
* `Environment.text`, `integer`, `real`, `flag` : the value of a variable, or a default where it is not set.
-/

namespace Backpressure
open Text

/-- Variables by name. -/
structure Environment where
  bindings : List (String × String)
  deriving DecidableEq, Repr

namespace Environment

def get? (e : Environment) (name : String) : Option String := e.bindings.lookup name

/-- The value of a variable, or a default. -/
def text (e : Environment) (name standard : String) : String := (e.get? name).getD standard

/-- The integer that a variable holds, or a default. -/
def integer (e : Environment) (name : String) (standard : Int) : Except Error Int :=
  match e.get? name with
  | some value => readInteger value
  | none => .ok standard

/-- The double that a variable holds, or a default. -/
def real (e : Environment) (name : String) (standard : Float) : Except Error Float :=
  match e.get? name with
  | some value => readReal value
  | none => .ok standard

/-- Whether a variable is set to `1`, `true` or `yes` in any case. -/
def flag (e : Environment) (name : String) : Bool :=
  match e.get? name with
  | some value => ["1", "true", "yes"].contains (String.ofList (lower value.toList))
  | none => false

end Environment

end Backpressure
