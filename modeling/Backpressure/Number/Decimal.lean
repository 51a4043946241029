import Backpressure.Number.Binary64

/-!
# Doubles as decimal texts

* `shortest` : the fewest digits that read back as the same double, positional from 1e-4 up to below 1e16;
* `scientific p` : one digit before the point and `p` after it, correctly rounded;
* `fixed p` : `p` digits after the point, correctly rounded.

All three start from the rational number that the double denotes, so no digit depends on how a double is computed.
-/

namespace Backpressure.Number.Decimal
open Binary64

/-- The exponent of the largest power of ten that is at most `n / d`. -/
def floorLog10 (n d : Nat) : Int :=
  let guess : Int := ((Nat.toDigits 10 n).length : Int) - ((Nat.toDigits 10 d).length : Int)
  let reached := if 0 ≤ guess then tenTo guess.toNat * d ≤ n else d ≤ n * tenTo (-guess).toNat
  if reached then guess else guess - 1

/-- `n / d` in units of `10 ^ e`, as a quotient. -/
def inUnits (n d : Nat) (e : Int) : Nat × Nat :=
  if 0 ≤ e then (n, d * tenTo e.toNat) else (n * tenTo (-e).toNat, d)

/-- The rational number `m * 10 ^ e`. -/
def scaled (m : Nat) (e : Int) : Rat :=
  if 0 ≤ e then ((m * tenTo e.toNat : Nat) : Rat) else mkRat m (tenTo (-e).toNat)

def digits (n : Nat) : List Char := Nat.toDigits 10 n

/-- The digits of an exponent, at least two, after its sign. -/
def exponentChars (e : Int) : List Char :=
  let ds := digits e.natAbs
  (if e < 0 then '-' else '+') :: (List.replicate (2 - ds.length) '0' ++ ds)

/-- The text of a number that is not finite. -/
def nonFinite (x : Float) : String :=
  if x.isNaN then "nan" else if isNegative x then "-inf" else "inf"

/-- The sign of a number, minus zero included. -/
def signChars (x : Float) : List Char := if isNegative x then ['-'] else []

/-! ## A given number of digits -/

/-- A positive quotient rounded to `p + 1` significant digits, with the exponent of the first. -/
def significant (p n d : Nat) : Nat × Int :=
  let e := floorLog10 n d
  let (a, b) := inUnits n d (e - p)
  let m := (roundDiv a b).toNat
  if m < tenTo (p + 1) then (m, e) else (m / 10, e + 1)

/-- One digit before the point and `p` after it, then the exponent. -/
def scientific (p : Nat) (x : Float) : String :=
  if x.isFinite then
    let q := exact x
    let (m, e) := if q = 0 then (0, 0) else significant p q.num.natAbs q.den
    let ds := digits m
    let ds := List.replicate (p + 1 - ds.length) '0' ++ ds
    let tail := ds.drop 1
    String.ofList
      (signChars x ++ ds.take 1 ++ (if tail.isEmpty then [] else '.' :: tail) ++ 'e' :: exponentChars e)
  else nonFinite x

/-- `p` digits after the point. -/
def fixed (p : Nat) (x : Float) : String :=
  if x.isFinite then
    let q := exact x
    let ds := digits (roundDiv (q.num.natAbs * tenTo p : Nat) q.den).toNat
    let ds := List.replicate (p + 1 - ds.length) '0' ++ ds
    let tail := ds.drop (ds.length - p)
    String.ofList
      (signChars x ++ ds.take (ds.length - p) ++ (if tail.isEmpty then [] else '.' :: tail))
  else nonFinite x

/-! ## The fewest digits that read back -/

/-- Whether `m * 10 ^ e` reads back as the magnitude of `x`. -/
def readsBack (x : Float) (m : Nat) (e : Int) : Bool :=
  (nearest (scaled m e)).toBits == x.abs.toBits

/-- The neighbour of `n / d` on the grid of `10 ^ e` that reads back as `x`, the nearer one if both do. -/
def onGrid? (x : Float) (n d : Nat) (e : Int) : Option (Nat × Int) :=
  let (a, b) := inUnits n d e
  let below := a / b
  match readsBack x below e, readsBack x (below + 1) e with
  | true, true => some ((roundDiv a b).toNat, e)
  | true, false => some (below, e)
  | false, true => some (below + 1, e)
  | false, false => none

/-- The shortest significand and the exponent of its last digit, for a positive number. -/
def shortestDigits (x : Float) : Nat × Int :=
  let q := exact x
  let n := q.num.natAbs
  let e := floorLog10 n q.den
  ((List.range 17).findSome? fun (k : Nat) => onGrid? x n q.den (e - (k : Int))).getD (significant 16 n q.den)

/-- The text of the digits `ds` with the point after the first `k` of them, zeros filled in on either side. -/
def positional (ds : List Char) (k : Int) : List Char :=
  if k ≤ 0 then ['0', '.'] ++ List.replicate (-k).toNat '0' ++ ds
  else
    let whole := ds.take k.toNat ++ List.replicate (k.toNat - ds.length) '0'
    let rest := ds.drop k.toNat
    whole ++ '.' :: (if rest.isEmpty then ['0'] else rest)

/-- The text of the digits `ds` with the point after the first and the exponent `e`. -/
def exponential (ds : List Char) (e : Int) : List Char :=
  let tail := ds.drop 1
  ds.take 1 ++ (if tail.isEmpty then [] else '.' :: tail) ++ 'e' :: exponentChars e

/-- The fewest digits that read back as the same double: positional when the first digit counts 1e-4 or more and less
than 1e16, else with an exponent. -/
def shortest (x : Float) : String :=
  if x.isFinite then
    if exact x = 0 then String.ofList (signChars x ++ ['0', '.', '0'])
    else
      let (m, e) := shortestDigits x
      let ds := ((digits m).reverse.dropWhile (· == '0')).reverse
      let first := e + ((digits m).length : Int) - 1
      String.ofList (signChars x ++
        if -4 ≤ first ∧ first < 16 then positional ds (first + 1) else exponential ds first)
  else nonFinite x

end Backpressure.Number.Decimal
