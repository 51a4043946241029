import Backpressure.Error

/-!
# Features and labels as they are given

* `Item` : a single number, or a row of numbers;
* `Item.flatten` : the numbers of all items, which have to be of one width.
-/

namespace Backpressure.Trend

/-- A number, or a row of numbers. -/
inductive Item (K : Type) where
  | number (x : K)
  | row (xs : List K)

namespace Item

variable {K : Type}

/-- The length of a row; a single number has none. -/
def width? : Item K → Option Nat
  | number _ => none
  | row xs => some xs.length

def numbers : Item K → List K
  | number x => [x]
  | row xs => xs

/-- The numbers of all items, which are all single numbers or all rows of one length. -/
def flatten : List (Item K) → Except Error (List K)
  | [] => .ok []
  | item :: rest =>
    if rest.all fun other => other.width? == item.width? then .ok ((item :: rest).flatMap numbers)
    else .error (.unevenRows (rest.length + 1))

end Item

end Backpressure.Trend
