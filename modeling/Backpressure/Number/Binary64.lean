import Backpressure.Number.Rounding

/-!
# Binary64 numbers and the rationals they denote

* `Binary64.exact x` : the rational number that a finite `x` denotes, 0 for the infinities and NaN;
* `Binary64.nearest q` : the double nearest to a rational number, of two equally near the one with even significand,
  an infinity from 2^1024 - 2^970 on;
* `Binary64.ratio n d` : the double nearest to `n / d`.
-/

namespace Backpressure.Number.Binary64

/-- The exponent of the smallest positive double. -/
def leastExponent : Int := -1074

/-- The bit pattern of positive infinity. -/
def infinityBits : Nat := 0x7FF * twoTo 52

/-- The significand and the power of two of the magnitude of a finite double. -/
def decode (x : Float) : Nat × Int :=
  let bits := x.toBits.toNat
  let field : Nat := bits / twoTo 52 % twoTo 11
  let fraction := bits % twoTo 52
  if field = 0 then (fraction, leastExponent) else (fraction + twoTo 52, (field : Int) - 1075)

/-- Whether the sign bit is set. -/
def isNegative (x : Float) : Bool := x.toBits.toNat / twoTo 63 = 1

/-- The rational number of magnitude `m * 2 ^ e`. -/
def scaled (m : Nat) (e : Int) : Rat :=
  if 0 ≤ e then ((m * twoTo e.toNat : Nat) : Rat) else mkRat m (twoTo (-e).toNat)

/-- The rational number that a finite double denotes. -/
def exact (x : Float) : Rat :=
  if x.isFinite then
    let (m, e) := decode x
    if isNegative x then -scaled m e else scaled m e
  else 0

/-- The exponent of the largest power of two that is at most `n / d`. -/
def floorLog2 (n d : Nat) : Int :=
  let guess : Int := (n.log2 : Int) - (d.log2 : Int)
  let reached := if 0 ≤ guess then twoTo guess.toNat * d ≤ n else d ≤ n * twoTo (-guess).toNat
  if reached then guess else guess - 1

/-- The bit pattern of the magnitude nearest to `n / d`. -/
def nearestBits (n d : Nat) : Nat :=
  if n = 0 then 0
  else
    let e := max (floorLog2 n d - 52) leastExponent
    let m := if 0 ≤ e then roundDiv n (d * twoTo e.toNat) else roundDiv (n * twoTo (-e).toNat : Nat) d
    min infinityBits ((e - leastExponent).toNat * twoTo 52 + m.toNat)

/-- The double nearest to a rational number. -/
def nearest (q : Rat) : Float :=
  let bits := nearestBits q.num.natAbs q.den
  Float.ofBits (UInt64.ofNat (if q.num < 0 then twoTo 63 + bits else bits))

/-- The double nearest to `n / d`. -/
def ratio (n d : Int) : Float := nearest (mkRat (if d < 0 then -n else n) d.natAbs)

def infinity : Float := Float.ofBits (UInt64.ofNat infinityBits)

def nan : Float := Float.ofBits (UInt64.ofNat (infinityBits + twoTo 51))

end Backpressure.Number.Binary64
