import Backpressure.Config
import Backpressure.Table
import Backpressure.Text.CharClass
import Backpressure.Text.Lowercase
import Backpressure.Trend.Model

/-!
# Model kinds by name

* `Registry` : constructors of models by kind; kinds are compared without the blanks around them and in lower case;
* `Registry.register`, `Registry.create` : adds a kind, makes a model of a kind;
* `Registry.standard` : the kinds `linear` and `ridge`.
-/

namespace Backpressure.Trend
open Number

/-- The name under which a kind is kept. -/
def normalKind (kind : String) : String := String.ofList (Text.lower (Text.strip kind.toList))

/-- Makes a model from its configuration, or fails. -/
abbrev Constructor (K : Type) := ModelConfig K → Except Error (Model K)

/-- Constructors of models by kind. -/
structure Registry (K : Type) where
  table : Table (Constructor K)

namespace Registry

variable {K : Type}

def empty : Registry K := ⟨Table.empty⟩

def kinds (r : Registry K) : List String := r.table.sortedKeys

/-- Whether there is a kind of this name. -/
def contains (r : Registry K) (kind : String) : Bool := r.table.contains (normalKind kind)

/-- Adds a kind; one that is there already is only replaced where `replace` says so. -/
def register (r : Registry K) (kind : String) (make : Constructor K) (replace : Bool) :
    Except Error (Registry K) :=
  if r.contains kind && !replace then .error (.modelKindTaken kind)
  else .ok ⟨r.table.insert (normalKind kind) make⟩

def create (r : Registry K) (kind : String) (config : ModelConfig K) : Except Error (Model K) :=
  match r.table.get? (normalKind kind) with
  | some make => make config
  | none => .error (.unknownModelKind kind r.kinds)

def linear : Constructor K := fun c => .ok (Model.fresh .leastSquares true c.clearOnLearn)

def ridge : Constructor K := fun c => .ok (Model.fresh (.ridge c.ridgePenalty) true c.clearOnLearn)

def standard : Registry K := ⟨⟨[("linear", linear), ("ridge", ridge)]⟩⟩

end Registry

end Backpressure.Trend
