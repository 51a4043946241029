/-!
# Powers and rounding of quotients

* `twoTo`, `tenTo` : the powers of two and of ten;
* `roundDiv n d` : the integer nearest to `n / d`, of two equally near the even one;
* `roundEven q` : the same of a rational number;
* `truncate q` : the integer part, toward zero.
-/

namespace Backpressure.Number

/-- A power of two. -/
def twoTo (k : Nat) : Nat := Nat.pow 2 k

/-- A power of ten. -/
def tenTo (k : Nat) : Nat := Nat.pow 10 k

/-- The integer nearest to `n / d`, of two equally near the even one. -/
def roundDiv (n : Int) (d : Nat) : Int :=
  let below := n / (d : Int)
  let twice := 2 * (n % (d : Int))
  if twice < d then below
  else if (d : Int) < twice then below + 1
  else if below % 2 = 0 then below
  else below + 1

/-- The integer nearest to a rational number, of two equally near the even one. -/
def roundEven (q : Rat) : Int := roundDiv q.num q.den

/-- The integer part of a rational number, toward zero. -/
def truncate (q : Rat) : Int := q.num.tdiv q.den

end Backpressure.Number
