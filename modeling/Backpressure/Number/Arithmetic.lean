/-!
# Arithmetic for trend lines

* `Arithmetic K` : the four operations, the quotient of two integers and the test for zero;
* `Arithmetic.ofInt`, `sum`, `mean` : what follows from them.

The rational numbers are the exact instance.
-/

namespace Backpressure.Number

/-- Numbers with the four operations. -/
class Arithmetic (K : Type) extends Add K, Sub K, Mul K, Div K where
  /-- The number nearest to the quotient of two integers. -/
  ratio : Int → Int → K
  /-- Whether a number is zero. -/
  isZero : K → Bool

namespace Arithmetic

variable {K : Type} [Arithmetic K]

def ofInt (n : Int) : K := ratio n 1

/-- The sum of a list, from the left. -/
def sum (xs : List K) : K := xs.foldl (· + ·) (ofInt 0)

def mean (xs : List K) : K := sum xs / ofInt (xs.length : Nat)

end Arithmetic

instance : Arithmetic Rat where
  ratio n d := (n : Rat) / (d : Rat)
  isZero q := q.num == 0

end Backpressure.Number
