import Backpressure.Proofs.Binary64
import Backpressure.Time.Timestamp

/-!
# The nearest double

* `roundDiv_le`, `le_roundDiv`, `roundDiv_le_of_odd` : how a rounded quotient compares with an integer;
* `isFinite_nearest`, `positive_nearest` : when the double nearest to a rational number is finite, and when positive;
* `isFinite_ofInt` : an integer has a finite nearest double just below `overflow`;
* `isFinite_millisTo` : the milliseconds between two instants are a finite number.
-/

namespace Backpressure.Number

/-! ## Rounded quotients -/

theorem roundDiv_le_of_odd {n k : Int} {d : Nat} (hk : k % 2 = 1) (hd : 0 < d) :
    roundDiv n d ≤ k ↔ 2 * n < (2 * k + 1) * d := by
  have hdiv : (d : Int) * (n / d) + n % d = n := Int.mul_ediv_add_emod n d
  have hrest : 0 ≤ n % (d : Int) := Int.emod_nonneg n (by omega)
  have hlt : n % (d : Int) < d := Int.emod_lt_of_pos n (by omega)
  unfold roundDiv
  dsimp only
  generalize n / (d : Int) = q at hdiv ⊢
  generalize n % (d : Int) = r at hdiv hrest hlt ⊢
  rw [Int.add_mul, Int.mul_assoc]
  rcases Int.lt_trichotomy q k with hqk | rfl | hqk
  · have hmul : (q + 1) * d ≤ k * d := Int.mul_le_mul_of_nonneg_right hqk (Int.natCast_nonneg d)
    rw [Int.add_mul, Int.mul_comm q] at hmul
    split <;> omega
  · rw [Int.mul_comm q]
    split <;> omega
  · have hmul : (k + 1) * d ≤ q * d := Int.mul_le_mul_of_nonneg_right hqk (Int.natCast_nonneg d)
    rw [Int.add_mul, Int.mul_comm q] at hmul
    split <;> omega

theorem roundDiv_le {n k : Int} {d : Nat} (hd : 0 < d) (h : n ≤ k * d) : roundDiv n d ≤ k := by
  have hdiv : (d : Int) * (n / d) + n % d = n := Int.mul_ediv_add_emod n d
  have hrest : 0 ≤ n % (d : Int) := Int.emod_nonneg n (by omega)
  have hle : n / (d : Int) ≤ k := by
    rw [← Int.mul_ediv_cancel k (show (d : Int) ≠ 0 by omega)]
    exact Int.ediv_le_ediv (by omega) h
  unfold roundDiv
  dsimp only
  generalize n / (d : Int) = q at hdiv hle ⊢
  generalize n % (d : Int) = r at hdiv hrest ⊢
  by_cases hqk : q = k
  · subst hqk
    rw [Int.mul_comm] at h
    split <;> omega
  · split <;> omega

theorem le_roundDiv {n k : Int} {d : Nat} (hd : 0 < d) (h : k * d ≤ n) : k ≤ roundDiv n d := by
  have hle : k ≤ n / (d : Int) := Int.le_ediv_of_mul_le (by omega) h
  unfold roundDiv
  dsimp only
  split <;> omega

namespace Binary64
open Float.Model Float.Model.UnpackedFloat

theorem twoTo_eq (k : Nat) : twoTo k = 2 ^ k := rfl

theorem twoTo_add (k l : Nat) : twoTo (k + l) = twoTo k * twoTo l := Nat.pow_add 2 k l

theorem twoTo_pos (k : Nat) : 0 < twoTo k := Nat.two_pow_pos k

theorem lt_twoTo_of_log2_lt {n k : Nat} (h : n.log2 < k) : n < twoTo k := lt_two_pow_of_log2_lt h

theorem twoTo_le_of_le_log2 {n k : Nat} (hn : n ≠ 0) (h : k ≤ n.log2) : twoTo k ≤ n :=
  Nat.le_trans (Nat.pow_le_pow_right (by decide) h) (Nat.log2_self_le hn)

/-! ## The bits of the nearest double -/

/-- The bits of a magnitude with those of a sign. -/
theorem toNat_ofNat_bits {bits : Nat} (h : bits ≤ infinityBits) (q : Rat) :
    (UInt64.ofNat (if q.num < 0 then twoTo 63 + bits else bits)).toBitVec.toNat =
      if q.num < 0 then 2 ^ 63 + bits else bits := by
  have hinfinity : infinityBits = 2047 * 2 ^ 52 := rfl
  have htwo : twoTo 63 = 2 ^ 63 := rfl
  rw [hinfinity] at h
  rw [htwo, UInt64.toNat_toBitVec, UInt64.toNat_ofNat']
  split <;> exact Nat.mod_eq_of_lt (by omega)

theorem nearestBits_le (n d : Nat) : nearestBits n d ≤ infinityBits := by
  unfold nearestBits
  split
  · exact Nat.zero_le _
  · exact Nat.min_le_left _ _

theorem toNat_unpackExponent_nearest (q : Rat) :
    (@unpackExponent Format.binary64 (UInt64.ofNat (if q.num < 0 then twoTo 63 + nearestBits q.num.natAbs q.den
      else nearestBits q.num.natAbs q.den)).toBitVec).toNat = nearestBits q.num.natAbs q.den / 2 ^ 52 := by
  have hle := nearestBits_le q.num.natAbs q.den
  have hinfinity : infinityBits = 2047 * 2 ^ 52 := rfl
  rw [toNat_unpackExponent, toNat_ofNat_bits hle]
  rw [hinfinity] at hle
  split <;> omega

theorem isSmall_nearest {q : Rat} (h : nearestBits q.num.natAbs q.den < 1076 * 2 ^ 52) :
    isSmall (nearest q).toModel.unpack = true := by
  refine isSmall_pack (isSmall_unpack ?_)
  rw [toNat_unpackExponent_nearest]
  omega

theorem isFinite_nearest (q : Rat) :
    (nearest q).isFinite = true ↔ nearestBits q.num.natAbs q.den < infinityBits := by
  have hle := nearestBits_le q.num.natAbs q.den
  have hexponent := toNat_unpackExponent_nearest q
  have hinfinity : infinityBits = 2047 * 2 ^ 52 := rfl
  have hfinite : (nearest q).isFinite = _ := (isFinite_pack _).trans (fits_unpack _)
  rw [hfinite, Bool.not_eq_true', decide_eq_false_iff_not]
  rw [hinfinity] at hle ⊢
  constructor
  · intro hne
    have hnat : nearestBits q.num.natAbs q.den / 2 ^ 52 ≠ 2047 := fun heq =>
      hne (BitVec.eq_of_toNat_eq (hexponent.trans heq))
    omega
  · intro hlt heq
    have hnat : 2047 = nearestBits q.num.natAbs q.den / 2 ^ 52 := (congrArg BitVec.toNat heq).symm.trans hexponent
    omega

theorem positive_nearest {q : Rat} (h : 0 ≤ q.num) : Positive (nearest q) := by
  have hle := nearestBits_le q.num.natAbs q.den
  have hinfinity : infinityBits = 2047 * 2 ^ 52 := rfl
  have hbits := toNat_ofNat_bits hle q
  have hnot : ¬ q.num < 0 := by omega
  refine positive_ofModel_pack (signOf_unpack (BitVec.eq_of_toNat_eq ?_))
  unfold unpackSign
  rw [BitVec.toNat_cast, BitVec.extractLsb_toNat, hbits, if_neg hnot, Nat.shiftRight_eq_div_pow]
  rw [hinfinity] at hle
  show nearestBits q.num.natAbs q.den / 2 ^ 63 % 2 = 0
  omega

/-- The bits of the magnitude nearest to a quotient that is not large. -/
theorem nearestBits_le_of_log2 {n d k : Nat} (hd : 0 < d) (hk : k ≤ 51) (h : n.log2 ≤ k + d.log2) :
    nearestBits n d ≤ (k + 1026) * 2 ^ 52 := by
  unfold nearestBits
  split
  · exact Nat.zero_le _
  · have hfloor : (n.log2 : Int) - d.log2 - 1 ≤ floorLog2 n d ∧ floorLog2 n d ≤ (n.log2 : Int) - d.log2 := by
      unfold floorLog2
      dsimp only
      split <;> omega
    dsimp only
    unfold leastExponent
    generalize floorLog2 n d = fl at hfloor ⊢
    generalize he : max (fl - 52) (-1074) = e
    rw [if_neg (by omega)]
    have hm : roundDiv ((n * twoTo (-e).toNat : Nat) : Int) d ≤ 2 ^ 54 := by
      refine roundDiv_le hd ?_
      have hlt : n < 2 ^ (n.log2 + 1) := Nat.lt_log2_self
      have hle : 2 ^ d.log2 ≤ d := Nat.log2_self_le (by omega)
      have hnat : n * twoTo (-e).toNat ≤ 2 ^ 54 * d :=
        calc n * 2 ^ (-e).toNat ≤ 2 ^ (n.log2 + 1) * 2 ^ (-e).toNat := Nat.mul_le_mul_right _ (Nat.le_of_lt hlt)
          _ = 2 ^ (n.log2 + 1 + (-e).toNat) := (Nat.pow_add _ _ _).symm
          _ ≤ 2 ^ (54 + d.log2) := Nat.pow_le_pow_right (by decide) (by omega)
          _ = 2 ^ 54 * 2 ^ d.log2 := Nat.pow_add _ _ _
          _ ≤ 2 ^ 54 * d := Nat.mul_le_mul_left _ hle
      exact_mod_cast hnat
    refine Nat.le_trans (Nat.min_le_right _ _) ?_
    generalize roundDiv _ _ = m at hm ⊢
    rw [twoTo_eq]
    omega

/-- The least integer of which the nearest double is infinite, 2^1024 - 2^970. -/
def overflow : Nat := (twoTo 54 - 1) * twoTo 970

theorem lt_overflow_of_log2 {n : Nat} (h : n.log2 < 53 + 970) : n < overflow := by
  have hlt : n < twoTo (53 + 970) := lt_twoTo_of_log2_lt h
  have hpos : 0 < twoTo 970 := twoTo_pos 970
  rw [twoTo_add, show twoTo 53 = 2 ^ 53 from rfl] at hlt
  unfold overflow
  rw [show twoTo 54 = 2 ^ 54 from rfl]
  omega

theorem overflow_le_of_log2 {n : Nat} (h : 54 + 970 ≤ n.log2) : overflow ≤ n := by
  have hne : n ≠ 0 := by
    rintro rfl
    exact absurd h (by decide)
  have hle : twoTo (54 + 970) ≤ n := twoTo_le_of_le_log2 hne h
  rw [twoTo_add] at hle
  unfold overflow
  rw [show twoTo 54 = 2 ^ 54 from rfl] at hle ⊢
  omega

theorem floorLog2_one {n : Nat} (hn : n ≠ 0) : floorLog2 n 1 = n.log2 := by
  have hle : 2 ^ n.log2 ≤ n := Nat.log2_self_le hn
  have hlog : Nat.log2 1 = 0 := by decide
  unfold floorLog2
  rw [hlog]
  simp [twoTo_eq, hle]

/-- The bits of the double nearest to an integer of 53 bits or more. -/
theorem nearestBits_one {n : Nat} (hn : 52 ≤ n.log2) : nearestBits n 1 = min infinityBits
    ((n.log2 + 1022) * 2 ^ 52 + (roundDiv n (2 ^ (n.log2 - 52))).toNat) := by
  have hne : n ≠ 0 := by
    rintro rfl
    exact absurd hn (by decide)
  have hexponent : max (floorLog2 n 1 - 52) leastExponent = (n.log2 - 52 : Nat) := by
    rw [floorLog2_one hne]
    unfold leastExponent
    omega
  have hfield : (((n.log2 - 52 : Nat) : Int) - leastExponent).toNat = n.log2 + 1022 := by
    unfold leastExponent
    omega
  unfold nearestBits
  rw [if_neg hne, hexponent]
  dsimp only
  rw [if_pos (Int.natCast_nonneg _), Int.toNat_natCast, Nat.one_mul, twoTo_eq, twoTo_eq, hfield]

theorem le_roundDiv_log2 {n : Nat} (hn : 52 ≤ n.log2) : 2 ^ 52 ≤ roundDiv n (2 ^ (n.log2 - 52)) := by
  have hne : n ≠ 0 := by
    rintro rfl
    exact absurd hn (by decide)
  have hpow : 2 ^ n.log2 = 2 ^ 52 * 2 ^ (n.log2 - 52) := by rw [← Nat.pow_add, Nat.add_sub_cancel' hn]
  have hle : 2 ^ 52 * 2 ^ (n.log2 - 52) ≤ n := hpow ▸ Nat.log2_self_le hne
  exact le_roundDiv (Nat.two_pow_pos _) (by exact_mod_cast hle)

theorem roundDiv_log2_le (n : Nat) : roundDiv n (2 ^ (n.log2 - 52)) ≤ 2 ^ 53 := by
  have hle : n ≤ 2 ^ 53 * 2 ^ (n.log2 - 52) :=
    calc n ≤ 2 ^ (n.log2 + 1) := Nat.le_of_lt Nat.lt_log2_self
      _ ≤ 2 ^ (53 + (n.log2 - 52)) := Nat.pow_le_pow_right (by decide) (by omega)
      _ = 2 ^ 53 * 2 ^ (n.log2 - 52) := Nat.pow_add _ _ _
  exact roundDiv_le (Nat.two_pow_pos _) (by exact_mod_cast hle)

theorem nearestBits_one_lt {n : Nat} : nearestBits n 1 < infinityBits ↔ n < overflow := by
  have hinfinity : infinityBits = 2047 * 2 ^ 52 := rfl
  by_cases hsmall : n.log2 ≤ 51
  · have hbits := nearestBits_le_of_log2 (k := 51) Nat.one_pos (Nat.le_refl _) (Nat.le_trans hsmall (Nat.le_add_right _ _))
    have hover : n < overflow := lt_overflow_of_log2 (by omega)
    omega
  rw [nearestBits_one (by omega), hinfinity]
  have hlow : 2 ^ 52 ≤ roundDiv n (2 ^ (n.log2 - 52)) := le_roundDiv_log2 (by omega)
  have hhigh := roundDiv_log2_le n
  rcases Nat.lt_trichotomy n.log2 1023 with hlog | hlog | hlog
  · have hover : n < overflow := lt_overflow_of_log2 (by omega)
    omega
  · -- Only here does the rounding decide.
    have hround := roundDiv_le_of_odd (n := n) (show (2 ^ 53 - 1 : Int) % 2 = 1 by decide) (Nat.two_pow_pos (n.log2 - 52))
    have hfield : n.log2 - 52 = 1 + 970 := by omega
    have hpow : 2 ^ (n.log2 - 52) = 2 * twoTo 970 := by
      rw [← twoTo_eq, hfield, twoTo_add, show twoTo 1 = 2 from rfl]
    rw [hpow] at hlow hhigh hround ⊢
    unfold overflow
    rw [show twoTo 54 = 2 ^ 54 from rfl]
    omega
  · have hover : overflow ≤ n := overflow_le_of_log2 (by omega)
    omega

/-! ## Quotients of integers -/

theorem isFinite_ofInt (n : Int) : (Arithmetic.ofInt n : Float).isFinite = true ↔ n.natAbs < overflow := by
  have hrat : mkRat n 1 = (n : Rat) := Rat.mkRat_self n
  show (nearest (mkRat n 1)).isFinite = true ↔ _
  rw [isFinite_nearest, hrat, Rat.num_intCast, Rat.den_intCast]
  exact nearestBits_one_lt

theorem positive_ofInt {n : Int} (h : 0 ≤ n) : Positive (Arithmetic.ofInt n) := by
  have hrat : mkRat n 1 = (n : Rat) := Rat.mkRat_self n
  show Positive (nearest (mkRat n 1))
  rw [hrat]
  exact positive_nearest h

theorem isSmall_ratio {n : Int} {d : Nat} (hd : 0 < d) (h : n.natAbs < 2 ^ 39 * d) :
    isSmall (ratio n d).toModel.unpack = true := by
  have hnot : ¬ (d : Int) < 0 := by omega
  show isSmall (nearest (mkRat (if (d : Int) < 0 then -n else n) (d : Int).natAbs)).toModel.unpack = true
  rw [if_neg hnot, Int.natAbs_natCast]
  generalize hq : mkRat n d = q
  have hcross : n * q.den = q.num * d := (Rat.mkRat_eq_iff (by omega) q.den_nz).mp (hq.trans q.mkRat_self.symm)
  have hnat : n.natAbs * q.den = q.num.natAbs * d := by
    have := congrArg Int.natAbs hcross
    rwa [Int.natAbs_mul, Int.natAbs_mul, Int.natAbs_natCast, Int.natAbs_natCast] at this
  have hlt : q.num.natAbs < 2 ^ 39 * q.den := by
    refine Nat.lt_of_mul_lt_mul_right (a := d) ?_
    calc q.num.natAbs * d = n.natAbs * q.den := hnat.symm
      _ < 2 ^ 39 * d * q.den := Nat.mul_lt_mul_of_pos_right h q.den_pos
      _ = 2 ^ 39 * q.den * d := Nat.mul_right_comm _ _ _
  have hlog : q.num.natAbs.log2 ≤ 39 + q.den.log2 := by
    refine log2_le_of_lt ?_
    calc q.num.natAbs < 2 ^ 39 * q.den := hlt
      _ ≤ 2 ^ 39 * 2 ^ (q.den.log2 + 1) := Nat.mul_le_mul_left _ (Nat.le_of_lt Nat.lt_log2_self)
      _ = 2 ^ (39 + q.den.log2 + 1) := (Nat.pow_add 2 39 _).symm
  have hbits := nearestBits_le_of_log2 q.den_pos (by decide) hlog
  exact isSmall_nearest (by omega)

theorem isFinite_millisTo {origin t : Time.Instant} (horigin : Time.inRange origin.micros = true)
    (ht : Time.inRange t.micros = true) : (origin.millisTo t : Float).isFinite = true := by
  have hend : Time.endOfTime = 315537897600000000 := by decide
  simp only [Time.inRange, Bool.and_eq_true, decide_eq_true_eq, hend] at horigin ht
  have hseconds := isSmall_ratio (n := t.micros - origin.micros) (d := 1000000) (by decide) (by omega)
  exact isFinite_mul hseconds (by rfl)

end Binary64

end Backpressure.Number
