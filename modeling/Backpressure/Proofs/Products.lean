import Backpressure.Proofs.Rounding

/-!
# Products of doubles

A double is a whole number of units of 2^-1074. The double nearest to a rational number and the product of two doubles
have the units of the exact result, rounded to 53 bits.

* `magnitudeOfBits` : the units that the bits of a double stand for, `units_unpack` : so do the unpacked numbers;
* `floorLog2_eq`, `nearestBits_eq` : the bits of the magnitude nearest to a quotient, `magnitudeOfBits_nearestBits` : what
  they stand for;
* `unitsOf_nearest`, `unitsOf_mul` : the units of the double nearest to a number and of a product;
* `exact_mul_units` : the rational number that a finite double denotes;
* `isFinite_nearest_iff`, `exact_nearest` : the numbers with a finite nearest double, and what it denotes;
* `nearest_eq_zero`, `nearest_eq_infinity` : the doubles nearest to very small and very large numbers.
-/

namespace Backpressure.Number.Binary64
open Float.Model Float.Model.UnpackedFloat

/-! ## Numbers from their bits -/

theorem top_eq : top = 2 ^ 52 * 2 ^ 2046 := by
  unfold top
  rw [show 2098 = 52 + 2046 from rfl, twoTo_add, twoTo_eq, twoTo_eq]

/-- The magnitude that the bits of a double stand for, in units of 2^-1074. -/
def magnitudeOfBits (bits : Nat) : Nat :=
  if bits / 2 ^ 52 % 2 ^ 11 = 0 then bits % 2 ^ 52 else (2 ^ 52 + bits % 2 ^ 52) * 2 ^ (bits / 2 ^ 52 % 2 ^ 11 - 1)

theorem toNat_unpackMantissa (b : BitVec Format.binary64.numBits) : (unpackMantissa b).toNat = b.toNat % 2 ^ 52 := by
  unfold unpackMantissa
  rw [BitVec.toNat_cast, BitVec.extractLsb_toNat, Nat.shiftRight_zero]
  rfl

theorem ne_notANumber_of_bits {b : BitVec Format.binary64.numBits} (h : b.toNat % 2 ^ 63 ≤ infinityBits) :
    UnpackedFloat.unpack Format.binary64 b ≠ .notANumber := by
  have hinfinity : infinityBits = 2047 * 2 ^ 52 := rfl
  have hexponent := toNat_unpackExponent b
  have hmantissa := toNat_unpackMantissa b
  unfold UnpackedFloat.unpack
  dsimp only
  split
  · next hones =>
    have hfraction : unpackMantissa b = 0#52 := by
      refine BitVec.eq_of_toNat_eq ?_
      rw [hones] at hexponent
      have hfield : 2047 = b.toNat / 2 ^ 52 % 2 ^ 11 := hexponent
      rw [hmantissa, BitVec.toNat_ofNat, Nat.zero_mod]
      omega
    rw [if_pos hfraction]
    nofun
  · split
    · split <;> nofun
    · nofun

theorem units_unpack {b : BitVec Format.binary64.numBits}
    (h : UnpackedFloat.unpack Format.binary64 b ≠ .notANumber) : units (UnpackedFloat.unpack Format.binary64 b) =
      (Sign.ofBitVec (unpackSign b)).apply (magnitudeOfBits b.toNat) := by
  have hbias : Format.binary64.exponentBias = 1023 := by decide
  have hexponent := toNat_unpackExponent b
  have hmantissa := toNat_unpackMantissa b
  unfold magnitudeOfBits
  rw [← hexponent, ← hmantissa]
  unfold UnpackedFloat.unpack at h ⊢
  dsimp only at h ⊢
  rw [hbias] at h ⊢
  split
  · next hones =>
    rw [if_pos hones] at h
    split
    · next hzero =>
      rw [hones, hzero, if_neg (by decide), show (-1#11).toNat - 1 = 2046 from rfl, show (0#52).toNat = 0 from rfl,
        Nat.add_zero, ← top_eq]
      rfl
    · next hpayload => exact absurd (if_neg hpayload) h
  · next hones =>
    split
    · next hzero =>
      rw [hzero, show (0#11).toNat = 0 from rfl, if_pos rfl]
      split
      · next hfraction =>
        rw [hfraction]
        cases Sign.ofBitVec (unpackSign b) <;> rfl
      · exact congrArg (fun n : Nat => Sign.apply _ (n : Int)) (Nat.mul_one _)
    · next hzero =>
      have hpos : (unpackExponent b).toNat ≠ 0 := fun heq => hzero (BitVec.eq_of_toNat_eq heq)
      rw [if_neg hpos]
      refine congrArg (fun n : Nat => Sign.apply _ (n : Int)) ?_
      unfold magnitude
      rw [toNat_one_append]
      congr 2
      show ((unpackExponent b).toNat - (1023 + 52) + 1074 : Int).toNat = _
      omega

/-- The magnitude of bits that are put together from an exponent and a significand, which may have one bit too many. -/
theorem magnitudeOfBits_add {m e : Nat} (hm : m ≤ 2 ^ 53) (hnormal : 2 ^ 52 ≤ m ∨ e = 0)
    (hfits : e * 2 ^ 52 + m ≤ infinityBits) : magnitudeOfBits (e * 2 ^ 52 + m) = m * 2 ^ e := by
  have hinfinity : infinityBits = 2047 * 2 ^ 52 := rfl
  rw [hinfinity] at hfits
  unfold magnitudeOfBits
  rcases Nat.lt_or_ge m (2 ^ 52) with hlt | hge
  · have hzero : e = 0 := hnormal.resolve_left (Nat.not_le.mpr hlt)
    subst hzero
    rw [if_pos (by omega)]
    omega
  · rcases hm.eq_or_lt with rfl | hlt
    · rw [if_neg (by omega), show (e * 2 ^ 52 + 2 ^ 53) / 2 ^ 52 % 2 ^ 11 - 1 = 1 + e by omega,
        show (e * 2 ^ 52 + 2 ^ 53) % 2 ^ 52 = 0 by omega, Nat.pow_add, ← Nat.mul_assoc]
      rfl
    · rw [if_neg (by omega), show (e * 2 ^ 52 + m) / 2 ^ 52 % 2 ^ 11 - 1 = e by omega]
      congr 1
      omega

theorem magnitudeOfBits_sign (bits : Nat) : magnitudeOfBits (2 ^ 63 + bits) = magnitudeOfBits bits := by
  unfold magnitudeOfBits
  rw [show (2 ^ 63 + bits) / 2 ^ 52 % 2 ^ 11 = bits / 2 ^ 52 % 2 ^ 11 by omega,
    show (2 ^ 63 + bits) % 2 ^ 52 = bits % 2 ^ 52 by omega]

theorem ofBitVec_unpackSign (b : BitVec Format.binary64.numBits) :
    Sign.ofBitVec (unpackSign b) = if b.toNat / 2 ^ 63 % 2 = 1 then .negative else .positive := by
  have hbit : (unpackSign b).toNat = b.toNat / 2 ^ 63 % 2 := by
    unfold unpackSign
    rw [BitVec.toNat_cast, BitVec.extractLsb_toNat, Nat.shiftRight_eq_div_pow]
    rfl
  rw [← hbit]
  rcases BitVec.eq_zero_or_eq_one (unpackSign b) with hsign | hsign <;> rw [hsign] <;> rfl

theorem magnitudeOfBits_infinityBits : magnitudeOfBits infinityBits = top := by
  have hbits : infinityBits = 2046 * 2 ^ 52 + 2 ^ 52 := rfl
  have hone : (2 : Nat) ^ 52 ≤ 2 ^ 53 := Nat.pow_le_pow_right (by decide) (by decide)
  rw [hbits, magnitudeOfBits_add hone (.inl (Nat.le_refl _)) hbits.ge, top_eq]

/-! ## The nearest double -/

theorem log_eq {q : Rat} {k : Int} (hle : (2 : Rat) ^ k ≤ q) (hlt : q < 2 ^ (k + 1)) : Int.log 2 q = k := by
  have hpos : 0 < q := lt_of_lt_of_le (by positivity) hle
  have hlow : k ≤ Int.log 2 q := (Int.zpow_le_iff_le_log one_lt_two hpos).mp (by exact_mod_cast hle)
  have hhigh : Int.log 2 q < k + 1 := (Int.lt_zpow_iff_log_lt one_lt_two hpos).mp (by exact_mod_cast hlt)
  omega

theorem log_mul_two_pow {q : Rat} (h : 0 < q) (k : Nat) : Int.log 2 (q * 2 ^ k) = Int.log 2 q + k := by
  have hlow : ((2 : Nat) : Rat) ^ Int.log 2 q ≤ q := Int.zpow_log_le_self one_lt_two h
  have hhigh : q < ((2 : Nat) : Rat) ^ (Int.log 2 q + 1) := Int.lt_zpow_succ_log_self one_lt_two q
  rw [Nat.cast_ofNat] at hlow hhigh
  refine log_eq ?_ ?_
  · rw [zpow_add₀ (by norm_num), zpow_natCast]
    exact mul_le_mul_of_nonneg_right hlow (by positivity)
  · rw [add_right_comm, zpow_add₀ (by norm_num), zpow_natCast]
    exact mul_lt_mul_of_pos_right hhigh (by positivity)

/-- Whether the first guess at the logarithm of a quotient is reached. -/
theorem reached_iff {n d : Nat} (hd : d ≠ 0) (k : Int) :
    (if 0 ≤ k then twoTo k.toNat * d ≤ n else d ≤ n * twoTo (-k).toNat) ↔ (2 : Rat) ^ k ≤ (n : Rat) / d := by
  have hpos : (0 : Rat) < d := by exact_mod_cast Nat.pos_of_ne_zero hd
  rw [le_div_iff₀ hpos]
  split
  · next hk =>
    obtain ⟨j, rfl⟩ := Int.eq_ofNat_of_zero_le hk
    rw [zpow_natCast, Int.toNat_natCast, twoTo_eq]
    exact_mod_cast Iff.rfl
  · next hk =>
    obtain ⟨j, hj⟩ := Int.eq_ofNat_of_zero_le (show 0 ≤ -k by omega)
    have hneg : k = -(j : Int) := by omega
    rw [hneg, neg_neg, Int.toNat_natCast, zpow_neg, zpow_natCast, twoTo_eq, inv_mul_le_iff₀ (by positivity),
      mul_comm _ (n : Rat)]
    exact_mod_cast Iff.rfl

theorem floorLog2_eq {n d : Nat} (hn : n ≠ 0) (hd : d ≠ 0) : floorLog2 n d = Int.log 2 ((n : Rat) / d) := by
  have hpos : (0 : Rat) < d := by exact_mod_cast Nat.pos_of_ne_zero hd
  have hnlow : (2 : Rat) ^ (n.log2 : Int) ≤ n := by exact_mod_cast Nat.log2_self_le hn
  have hnhigh : (n : Rat) < 2 ^ (n.log2 + 1 : Int) := by exact_mod_cast Nat.lt_log2_self
  have hdlow : (2 : Rat) ^ (d.log2 : Int) ≤ d := by exact_mod_cast Nat.log2_self_le hd
  have hdhigh : (d : Rat) < 2 ^ (d.log2 + 1 : Int) := by exact_mod_cast Nat.lt_log2_self
  have hlow : (2 : Rat) ^ ((n.log2 : Int) - d.log2 - 1) ≤ n / d := by
    rw [le_div_iff₀ hpos]
    calc (2 : Rat) ^ ((n.log2 : Int) - d.log2 - 1) * d
        ≤ 2 ^ ((n.log2 : Int) - d.log2 - 1) * 2 ^ (d.log2 + 1 : Int) :=
          mul_le_mul_of_nonneg_left hdhigh.le (by positivity)
      _ = 2 ^ (n.log2 : Int) := by
          rw [← zpow_add₀ (by norm_num)]
          congr 1
          omega
      _ ≤ n := hnlow
  have hhigh : (n : Rat) / d < 2 ^ ((n.log2 : Int) - d.log2 + 1) := by
    rw [div_lt_iff₀ hpos]
    calc (n : Rat) < 2 ^ (n.log2 + 1 : Int) := hnhigh
      _ = 2 ^ ((n.log2 : Int) - d.log2 + 1) * 2 ^ (d.log2 : Int) := by
          rw [← zpow_add₀ (by norm_num)]
          congr 1
          omega
      _ ≤ 2 ^ ((n.log2 : Int) - d.log2 + 1) * d := mul_le_mul_of_nonneg_left hdlow (by positivity)
  have hreached := reached_iff (n := n) hd ((n.log2 : Int) - d.log2)
  unfold floorLog2
  dsimp only
  by_cases hguess : (2 : Rat) ^ ((n.log2 : Int) - d.log2) ≤ n / d
  · rw [if_pos (hreached.mpr hguess)]
    exact (log_eq hguess hhigh).symm
  · rw [if_neg fun h => hguess (hreached.mp h)]
    refine (log_eq hlow ?_).symm
    rw [sub_add_cancel]
    exact not_le.mp hguess

/-- Bits that are put together do not exceed those of an infinity just where their magnitude does not. -/
theorem add_le_infinityBits_iff {m e : Nat} (hm : m ≤ 2 ^ 53) (hnormal : 2 ^ 52 ≤ m ∨ e = 0) :
    e * 2 ^ 52 + m ≤ infinityBits ↔ m * 2 ^ e ≤ top := by
  have hinfinity : infinityBits = 2047 * 2 ^ 52 := rfl
  rw [hinfinity]
  rcases Nat.lt_trichotomy e 2046 with he | rfl | he
  · have hmagnitude : m * 2 ^ e ≤ top :=
      calc m * 2 ^ e ≤ 2 ^ 53 * 2 ^ e := Nat.mul_le_mul_right _ hm
        _ = 2 ^ (53 + e) := (Nat.pow_add _ _ _).symm
        _ ≤ top := two_pow_le_top (by omega)
    exact ⟨fun _ => hmagnitude, fun _ => by omega⟩
  · rw [top_eq, Nat.mul_le_mul_right_iff (Nat.two_pow_pos _)]
    omega
  · have hlow : 2 ^ 52 ≤ m := hnormal.resolve_right (by omega)
    have hmagnitude : top < m * 2 ^ e :=
      calc top = 2 ^ (52 + 2046) := by rw [top_eq, ← Nat.pow_add]
        _ < 2 ^ (52 + e) := Nat.pow_lt_pow_right (by decide) (by omega)
        _ = 2 ^ 52 * 2 ^ e := Nat.pow_add _ _ _
        _ ≤ m * 2 ^ e := Nat.mul_le_mul_right _ hlow
    exact ⟨fun h => absurd h (by omega), fun h => absurd h (Nat.not_le.mpr hmagnitude)⟩

/-- A quotient as a multiple of a power of two, rounded to an integer. -/
theorem multiple_eq (n : Nat) {d : Nat} (hd : d ≠ 0) {e : Int} (he : -1074 ≤ e) :
    (if 0 ≤ e then roundDiv n (d * twoTo e.toNat) else roundDiv (n * twoTo (-e).toNat : Nat) d) =
      roundEven ((n : Rat) / d * 2 ^ 1074 / 2 ^ (e + 1074).toNat) := by
  have hpos : (0 : Rat) < d := by exact_mod_cast Nat.pos_of_ne_zero hd
  split
  · next hnonneg =>
    obtain ⟨j, rfl⟩ := Int.eq_ofNat_of_zero_le hnonneg
    rw [← roundEven_div _ (Nat.mul_pos (Nat.pos_of_ne_zero hd) (twoTo_pos _)),
      show ((j : Int) + 1074).toNat = j + 1074 by omega, pow_add, Int.toNat_natCast, twoTo_eq]
    congr 1
    push_cast
    field_simp
  · next hneg =>
    obtain ⟨j, hj⟩ := Int.eq_ofNat_of_zero_le (show 0 ≤ -e by omega)
    rw [← roundEven_div _ (Nat.pos_of_ne_zero hd), hj, Int.toNat_natCast, twoTo_eq,
      show 1074 = (e + 1074).toNat + j by omega, pow_add]
    congr 1
    push_cast
    field_simp

/-- The bits of the magnitude nearest to a quotient, from the power of two that it is rounded to a multiple of. -/
theorem nearestBits_eq {n d : Nat} (hn : n ≠ 0) (hd : d ≠ 0) {q : Rat} (hq : (n : Rat) / d * 2 ^ 1074 = q) :
    nearestBits n d = min infinityBits (scale q * 2 ^ 52 + (roundEven (q / 2 ^ scale q)).toNat) := by
  have hpos : (0 : Rat) < n / d :=
    div_pos (by exact_mod_cast Nat.pos_of_ne_zero hn) (by exact_mod_cast Nat.pos_of_ne_zero hd)
  generalize he : max (floorLog2 n d - 52) leastExponent = e
  have hscale : scale q = (e + 1074).toNat := by
    unfold leastExponent at he
    unfold scale
    rw [← hq, log_mul_two_pow hpos, ← floorLog2_eq hn hd]
    omega
  have hleast : -1074 ≤ e := he ▸ le_max_right _ _
  unfold nearestBits
  rw [if_neg hn, he]
  dsimp only
  rw [multiple_eq n hd hleast, hq, hscale]
  rfl

/-- The bits of the magnitude nearest to a quotient stand for its rounded units. -/
theorem magnitudeOfBits_nearestBits (n : Nat) {d : Nat} (hd : d ≠ 0) :
    (magnitudeOfBits (nearestBits n d) : Int) = min (top : Int) (settle ((n : Rat) / d * 2 ^ 1074)) := by
  by_cases hn : n = 0
  · subst hn
    have hzero : nearestBits 0 d = 0 := if_pos rfl
    rw [hzero, Nat.cast_zero, zero_div, zero_mul, settle_zero]
    exact (Int.min_eq_right (Int.natCast_nonneg top)).symm
  generalize hq : (n : Rat) / d * 2 ^ 1074 = q
  have hnonneg : 0 ≤ q := hq ▸ by positivity
  obtain ⟨m, hround, hsettle, hm, hnormal⟩ := exists_significand hnonneg
  have hfits := add_le_infinityBits_iff hm hnormal
  rw [nearestBits_eq hn hd hq, hround, hsettle, Int.toNat_natCast]
  rcases le_or_gt (scale q * 2 ^ 52 + m) infinityBits with hle | hgt
  · rw [min_eq_right hle, magnitudeOfBits_add hm hnormal hle]
    exact (min_eq_right (Int.ofNat_le.mpr (hfits.mp hle))).symm
  · rw [min_eq_left hgt.le, magnitudeOfBits_infinityBits]
    have hlt : top < m * 2 ^ scale q := Nat.not_le.mp fun hle => absurd (hfits.mpr hle) hgt.not_ge
    exact (min_eq_left (Int.ofNat_le.mpr hlt.le)).symm

theorem natAbs_div_den (q : Rat) : (q.num.natAbs : Rat) / q.den = |q| := by
  rw [Nat.cast_natAbs, Int.cast_abs]
  conv_rhs => rw [← Rat.num_div_den q, abs_div, Nat.abs_cast]

/-- The double nearest to a rational number has its units, rounded to 53 bits. -/
theorem unitsOf_nearest (q : Rat) : (nearest q).toModel.unpack ≠ .notANumber ∧
    unitsOf (nearest q) = cut (settled (q * 2 ^ 1074)) := by
  have hle := nearestBits_le q.num.natAbs q.den
  have hbits := toNat_ofNat_bits hle q
  have hinfinity : infinityBits = 2047 * 2 ^ 52 := rfl
  have hmagnitude := magnitudeOfBits_nearestBits q.num.natAbs q.den_nz
  generalize hb : (UInt64.ofNat (if q.num < 0 then twoTo 63 + nearestBits q.num.natAbs q.den
    else nearestBits q.num.natAbs q.den)).toBitVec = b at hbits
  have hnumber : UnpackedFloat.unpack Format.binary64 b ≠ .notANumber := by
    refine ne_notANumber_of_bits ?_
    rw [hbits]
    rw [hinfinity] at hle ⊢
    split <;> omega
  have hunpack : (nearest q).toModel = Float.Model.pack (UnpackedFloat.unpack Format.binary64 b) := by
    rw [← hb]
    rfl
  obtain ⟨hpacked, hunits⟩ := units_unpack_pack (rounded_unpack hnumber)
  rw [units_unpack hnumber, ofBitVec_unpackSign, hbits] at hunits
  rw [unitsOf, hunpack, hunits]
  refine ⟨hpacked, ?_⟩
  rw [natAbs_div_den] at hmagnitude
  obtain ⟨n, hn⟩ := Int.eq_ofNat_of_zero_le (settle_nonneg (show 0 ≤ |q| * 2 ^ 1074 by positivity))
  have hcut : ∀ s : Sign, cut (s.apply (magnitudeOfBits (nearestBits q.num.natAbs q.den))) = cut (s.apply n) := by
    intro s
    rw [hmagnitude, hn, cut_apply, ← Nat.cast_min, cut_apply, Nat.min_comm top, Nat.min_assoc, Nat.min_self]
  rw [hinfinity] at hle
  by_cases hneg : q.num < 0
  · have hq : q < 0 := Rat.num_neg.mp hneg
    rw [if_pos hneg, if_pos (by omega), magnitudeOfBits_sign, hcut,
      settled_of_nonpos (mul_nonpos_of_nonpos_of_nonneg hq.le (by positivity)), ← neg_mul, ← abs_of_neg hq, hn]
    rfl
  · have hq : 0 ≤ q := Rat.num_nonneg.mp (not_lt.mp hneg)
    rw [if_neg hneg, if_neg (by omega), hcut, settled_of_nonneg (by positivity), ← hn, abs_of_nonneg hq]
    rfl

/-! ## The numbers that doubles denote -/

theorem scaled_eq (m : Nat) {e : Int} (he : -1074 ≤ e) : scaled m e * 2 ^ 1074 = magnitude m e := by
  unfold scaled magnitude
  split
  · next hnonneg =>
    obtain ⟨j, rfl⟩ := Int.eq_ofNat_of_zero_le hnonneg
    rw [show ((j : Int) + 1074).toNat = j + 1074 by omega, Int.toNat_natCast, twoTo_eq, pow_add, ← mul_assoc,
      Nat.cast_mul _ (2 ^ 1074), Nat.cast_pow 2 1074, Nat.cast_ofNat]
  · next hneg =>
    obtain ⟨j, hj⟩ := Int.eq_ofNat_of_zero_le (show 0 ≤ -e by omega)
    rw [hj, Int.toNat_natCast, twoTo_eq, Rat.mkRat_eq_div, show 1074 = (e + 1074).toNat + j by omega, pow_add]
    push_cast
    field_simp

/-- The rational number that a finite double denotes, in units of 2^-1074. -/
theorem exact_mul_units {x : Float} (h : x.isFinite = true) : exact x * 2 ^ 1074 = unitsOf x := by
  have hnumber := ne_notANumber_of_isFinite h
  have hunits : unitsOf x = _ := units_unpack hnumber
  have hbits : x.toBits.toNat = x.toModel.toBits.toBitVec.toNat := rfl
  have hlt : x.toBits.toNat < 2 ^ 64 := x.toBits.toNat_lt
  rw [hunits, ofBitVec_unpackSign, ← hbits]
  unfold exact isNegative decode
  rw [if_pos h]
  dsimp only
  generalize x.toBits.toNat = bits at hlt ⊢
  rw [show twoTo 52 = 2 ^ 52 from rfl, show twoTo 11 = 2 ^ 11 from rfl, show twoTo 63 = 2 ^ 63 from rfl]
  generalize hpair : (if bits / 2 ^ 52 % 2 ^ 11 = 0 then (bits % 2 ^ 52, leastExponent)
    else (bits % 2 ^ 52 + 2 ^ 52, (bits / 2 ^ 52 % 2 ^ 11 : Nat) - 1075)) = pair
  have hmagnitude : scaled pair.1 pair.2 * 2 ^ 1074 = magnitudeOfBits bits := by
    unfold magnitudeOfBits
    subst hpair
    split
    · exact (scaled_eq _ (Int.le_refl _)).trans (congrArg Nat.cast (Nat.mul_one _))
    · rw [scaled_eq _ (by dsimp only; omega)]
      unfold magnitude
      dsimp only
      rw [Nat.add_comm]
      congr 3
      omega
  by_cases hsign : bits / 2 ^ 63 = 1
  · rw [if_pos (decide_eq_true hsign), if_pos (by omega), neg_mul, hmagnitude]
    exact (Int.cast_neg _).symm
  · rw [if_neg (by rw [decide_eq_false hsign]; nofun), if_neg (by omega), hmagnitude]
    rfl

/-! ## Products -/

theorem trim_zero (s : Sign) (t : Int) : trim s 0 t = .zero s := by
  generalize hk : (Format.binary64.targetExponent (totalExponent 0 t) - t).toNat = k
  have hshift : ((⟨0, false, false⟩ : ExtendedMantissa) >>> k).mantissa = 0 :=
    (shiftRight_mantissa _ k).trans (Nat.zero_div _)
  unfold trim
  rw [shiftToTargetExponent_eq hk]
  exact dif_pos hshift

section Significands

variable {m : Nat} {e t : Int}

/-- The scale of a product of doubles, given by its significand and its exponent. -/
theorem scale_significand (hm : 0 < m) (he : -2148 ≤ e) (ht : max (m.log2 + 1 + e - 53) (-1074) = t) :
    scale ((m : Rat) * 2 ^ (e + 2148).toNat / 2 ^ 1074) = (t + 1074).toNat := by
  have hlow : (2 : Rat) ^ m.log2 ≤ m := by exact_mod_cast Nat.log2_self_le (Nat.ne_of_gt hm)
  have hhigh : (m : Rat) < 2 ^ (m.log2 + 1) := by exact_mod_cast Nat.lt_log2_self
  refine scale_eq ?_ ?_
  · rw [div_lt_iff₀ (by positivity), ← pow_add]
    calc (m : Rat) * 2 ^ (e + 2148).toNat < 2 ^ (m.log2 + 1) * 2 ^ (e + 2148).toNat :=
          mul_lt_mul_of_pos_right hhigh (by positivity)
      _ = 2 ^ (m.log2 + 1 + (e + 2148).toNat) := (pow_add _ _ _).symm
      _ ≤ 2 ^ (53 + (t + 1074).toNat + 1074) := pow_le_pow_right₀ one_le_two (by omega)
  · by_cases hleast : t = -1074
    · exact .inl (by omega)
    · refine .inr ?_
      rw [le_div_iff₀ (by positivity), ← pow_add]
      calc (2 : Rat) ^ (52 + (t + 1074).toNat + 1074) ≤ 2 ^ (m.log2 + (e + 2148).toNat) :=
            pow_le_pow_right₀ one_le_two (by omega)
        _ = 2 ^ m.log2 * 2 ^ (e + 2148).toNat := pow_add _ _ _
        _ ≤ m * 2 ^ (e + 2148).toNat := mul_le_mul_of_nonneg_right hlow (by positivity)

theorem roundEven_significand (m : Nat) (he : -2148 ≤ e) (hle : e ≤ t) (hleast : -1074 ≤ t) :
    roundEven ((m : Rat) * 2 ^ (e + 2148).toNat / 2 ^ 1074 / 2 ^ (t + 1074).toNat) =
      ((⟨m, false, false⟩ : ExtendedMantissa) >>> (t - e).toNat).roundedMantissa := by
  have hpow : (2 : Rat) ^ (e + 2148).toNat * 2 ^ (t - e).toNat = 2 ^ 1074 * 2 ^ (t + 1074).toNat := by
    rw [← pow_add, ← pow_add]
    congr 1
    omega
  have hquotient : (m : Rat) * 2 ^ (e + 2148).toNat / 2 ^ 1074 / 2 ^ (t + 1074).toNat =
      (m : Int) / (2 ^ (t - e).toNat : Nat) := by
    rw [div_div, div_eq_div_iff (by positivity) (by positivity), Nat.cast_pow, Nat.cast_ofNat, Int.cast_natCast,
      mul_assoc, hpow]
  rw [hquotient, roundEven_div _ (Nat.two_pow_pos _), roundedMantissa_shiftRight]

/-- Rounding a significand that has all its bits, or too small an exponent. -/
theorem units_roundWithAccuracy (s : Sign) (hm : 0 < m) (he : -2148 ≤ e) (hbits : 52 ≤ m.log2 ∨ e ≤ -1074) :
    Rounded (roundWithAccuracy Format.binary64 s m e .exact) ∧
      units (roundWithAccuracy Format.binary64 s m e .exact) =
        s.apply (settle ((m : Rat) * 2 ^ (e + 2148).toNat / 2 ^ 1074)) := by
  generalize ht : Format.binary64.targetExponent (totalExponent m e) = t
  have htarget : max (m.log2 + 1 + e - 53) (-1074) = t := ht
  have hscale := scale_significand hm he htarget
  have hround := roundEven_significand m he (t := t) (by omega) (by omega)
  obtain ⟨r, hr, hvalue, hle, hnormal⟩ :=
    exists_significand (show 0 ≤ (m : Rat) * 2 ^ (e + 2148).toNat / 2 ^ 1074 by positivity)
  rw [hscale] at hr hvalue hnormal
  rw [hr, Int.natCast_inj] at hround
  have hstages : roundWithAccuracy Format.binary64 s m e .exact = trim s r t := by
    show trim s (shiftToTargetExponent Format.binary64 m e .exact).1.roundedMantissa
      (shiftToTargetExponent Format.binary64 m e .exact).2 = _
    rw [shiftToTargetExponent_eq (by rw [ht]), ← hround]
    congr 1
    omega
  rw [hstages, hvalue]
  by_cases hzero : r = 0
  · subst hzero
    rw [trim_zero, Nat.zero_mul]
    refine ⟨trivial, ?_⟩
    cases s <;> rfl
  · exact units_trim (Nat.pos_of_ne_zero hzero) hle (by omega) (by omega)

end Significands

theorem apply_mul (s t : Sign) (a b : Int) : s.apply a * t.apply b = (s * t).apply (a * b) := by
  cases s <;> cases t
  · exact Int.neg_mul_neg a b
  · exact Int.neg_mul a b
  · exact Int.mul_neg a b
  · rfl

theorem units_unpacked_mul {u v : UnpackedFloat} (hu : Rounded u) (hv : Rounded v) (hfu : u.isFinite = true)
    (hfv : v.isFinite = true) : Rounded (UnpackedFloat.mul Format.binary64 u v) ∧
      units (UnpackedFloat.mul Format.binary64 u v) = settled ((units u * units v : Int) / 2 ^ 1074) := by
  have hzero : settled (((0 : Int) : Rat) / 2 ^ 1074) = 0 := by
    rw [Int.cast_zero, zero_div, settled_of_nonneg le_rfl, settle_zero]
  cases u with
  | notANumber => cases hfu
  | infinity s => cases hfu
  | zero s =>
    cases v with
    | notANumber => cases hfv
    | infinity t => cases hfv
    | zero t => exact ⟨trivial, hzero.symm⟩
    | finite t n f hn =>
      refine ⟨trivial, ?_⟩
      show (0 : Int) = settled (((0 * _ : Int) : Rat) / 2 ^ 1074)
      rw [Int.zero_mul, hzero]
  | finite s m e hm =>
    cases v with
    | notANumber => cases hfv
    | infinity t => cases hfv
    | zero t =>
      refine ⟨trivial, ?_⟩
      show (0 : Int) = settled (((_ * 0 : Int) : Rat) / 2 ^ 1074)
      rw [Int.mul_zero, hzero]
    | finite t n f hn =>
      have hle := hu.le
      have hlf := hv.le
      have hbits : 52 ≤ (m * n).log2 ∨ e + f ≤ -1074 := by
        have hne : m * n ≠ 0 := Nat.ne_of_gt (Nat.mul_pos hm hn)
        rcases hu.normal with hnormal | hleast
        · exact .inl ((Nat.le_log2 hne).mpr (hnormal.trans (Nat.le_mul_of_pos_right m hn)))
        · rcases hv.normal with hnormal | hleast'
          · exact .inl ((Nat.le_log2 hne).mpr (hnormal.trans (Nat.le_mul_of_pos_left n hm)))
          · exact .inr (by omega)
      have hmagnitude : m * n * 2 ^ (e + f + 2148).toNat = magnitude m e * magnitude n f := by
        unfold magnitude
        rw [show (e + f + 2148).toNat = (e + 1074).toNat + (f + 1074).toNat by omega, Nat.pow_add]
        exact Nat.mul_mul_mul_comm _ _ _ _
      obtain ⟨hrounded, hunits⟩ := units_roundWithAccuracy (s * t) (Nat.mul_pos hm hn) (by omega) hbits
      have happly := settled_apply (s * t) (magnitude m e * magnitude n f) (2 ^ 1074)
      refine ⟨hrounded, hunits.trans ?_⟩
      rw [Nat.cast_pow, Nat.cast_ofNat] at happly
      show _ = settled (((s.apply (magnitude m e) * t.apply (magnitude n f) : Int) : Rat) / 2 ^ 1074)
      rw [apply_mul, ← Int.natCast_mul, happly, ← hmagnitude, Nat.cast_mul (m * n), Nat.cast_pow, Nat.cast_ofNat]

/-- The product of two finite doubles is a number, with the rounded product of their units. -/
theorem unitsOf_mul {x y : Float} (hx : x.isFinite = true) (hy : y.isFinite = true) :
    (x * y).toModel.unpack ≠ .notANumber ∧
      unitsOf (x * y) = cut (settled ((unitsOf x * unitsOf y : Int) / 2 ^ 1074)) := by
  obtain ⟨hrounded, hunits⟩ := units_unpacked_mul (rounded_unpack (ne_notANumber_of_isFinite hx))
    (rounded_unpack (ne_notANumber_of_isFinite hy)) hx hy
  obtain ⟨hnumber, hpack⟩ := units_unpack_pack hrounded
  exact ⟨hnumber, hpack.trans (congrArg cut hunits)⟩

/-! ## Finite numbers -/

theorem natAbs_units_finite (s : Sign) {m : Nat} (e : Int) (hm : 0 < m) :
    (units (.finite s m e hm)).natAbs = magnitude m e := by
  cases s
  · exact (Int.natAbs_neg (magnitude m e : Int)).trans (Int.natAbs_natCast _)
  · exact Int.natAbs_natCast _

theorem isFinite_iff {x : Float} (h : x.toModel.unpack ≠ .notANumber) :
    x.isFinite = true ↔ (unitsOf x).natAbs < top := by
  have hrounded := rounded_unpack h
  have hfits : x.toModel.unpack.isFinite = true → fits x.toModel.unpack = true := fun hfinite =>
    (fits_unpack _).trans ((isFinite_unpack _).symm.trans hfinite)
  have hpos : 0 < top := twoTo_pos 2098
  show x.toModel.unpack.isFinite = true ↔ (units x.toModel.unpack).natAbs < top
  cases hx : x.toModel.unpack with
  | notANumber => exact absurd hx h
  | infinity s =>
    have hunits : (units (.infinity s)).natAbs = top := by
      cases s
      · exact (Int.natAbs_neg (top : Int)).trans (Int.natAbs_natCast top)
      · exact Int.natAbs_natCast top
    rw [hunits]
    exact ⟨nofun, fun hlt => absurd hlt (Nat.lt_irrefl _)⟩
  | zero s => exact ⟨fun _ => hpos, fun _ => rfl⟩
  | finite s m e hm =>
    refine ⟨fun hfinite => ?_, fun _ => rfl⟩
    have hcanonical : Canonical m e := by
      have hunpack : Rounded (.finite s m e hm) := hx ▸ hrounded
      exact hunpack
    have hlt := hcanonical.magnitude_lt_top (of_decide_eq_true ((hx ▸ hfits) hfinite))
    rwa [natAbs_units_finite]

/-- The numbers with a finite nearest double are those of a magnitude below `overflow`. -/
theorem isFinite_nearest_iff_abs (q : Rat) : (nearest q).isFinite = true ↔ |q| < overflow := by
  obtain ⟨hnumber, hunits⟩ := unitsOf_nearest q
  have hpos : (0 : Rat) < 2 ^ 1074 := by positivity
  have hle := top_le_settle_iff (|q| * 2 ^ 1074)
  have hnonneg := settle_nonneg (mul_nonneg (abs_nonneg q) hpos.le)
  rw [mul_le_mul_iff_left₀ hpos] at hle
  rw [isFinite_iff hnumber, hunits, ← not_le (a := (overflow : Rat)), ← hle]
  unfold cut
  rcases le_total 0 q with hq | hq
  · rw [abs_of_nonneg hq] at hnonneg ⊢
    rw [settled_of_nonneg (mul_nonneg hq hpos.le)]
    omega
  · rw [abs_of_nonpos hq] at hnonneg ⊢
    rw [settled_of_nonpos (mul_nonpos_of_nonpos_of_nonneg hq hpos.le), ← neg_mul]
    omega

theorem isFinite_nearest_iff {q : Rat} (h : 0 ≤ q) : (nearest q).isFinite = true ↔ q < overflow := by
  rw [isFinite_nearest_iff_abs, abs_of_nonneg h]

theorem exact_nearest {q : Rat} (h : (nearest q).isFinite = true) :
    exact (nearest q) * 2 ^ 1074 = settled (q * 2 ^ 1074) := by
  obtain ⟨hnumber, hunits⟩ := unitsOf_nearest q
  have hlt := (isFinite_iff hnumber).mp h
  rw [exact_mul_units h, hunits]
  rw [hunits] at hlt
  congr 1
  unfold cut at hlt ⊢
  omega

/-- The greatest finite double. -/
def greatest : Nat := (twoTo 53 - 1) * twoTo 971

theorem greatest_lt_overflow : greatest < overflow := by
  have hdouble : greatest = (twoTo 54 - 2) * twoTo 970 := by
    unfold greatest
    rw [show 971 = 1 + 970 from rfl, twoTo_add, ← Nat.mul_assoc]
    exact congrArg (· * twoTo 970) (by decide)
  rw [hdouble]
  exact Nat.mul_lt_mul_of_pos_right (by decide) (twoTo_pos _)

theorem natAbs_unitsOf_le {x : Float} (h : x.isFinite = true) : (unitsOf x).natAbs ≤ greatest * 2 ^ 1074 := by
  have hrounded := rounded_unpack (ne_notANumber_of_isFinite h)
  have hfinite : x.toModel.unpack.isFinite = true := h
  have hfits : fits x.toModel.unpack = true := (fits_unpack _).trans ((isFinite_unpack _).symm.trans h)
  show (units x.toModel.unpack).natAbs ≤ _
  cases hx : x.toModel.unpack with
  | notANumber =>
    rw [hx] at hfinite
    cases hfinite
  | infinity s =>
    rw [hx] at hfinite
    cases hfinite
  | zero s => exact Nat.zero_le _
  | finite s m e hm =>
    have hcanonical : Canonical m e := by
      have hunpack : Rounded (.finite s m e hm) := hx ▸ hrounded
      exact hunpack
    have hexponent : e ≤ 971 := by
      rw [hx] at hfits
      exact of_decide_eq_true hfits
    calc (units (.finite s m e hm)).natAbs = m * twoTo (e + 1074).toNat := natAbs_units_finite s e hm
      _ ≤ (twoTo 53 - 1) * twoTo (971 + 1074) :=
        Nat.mul_le_mul (Nat.le_sub_one_of_lt hcanonical.lt) (twoTo_mono (by omega))
      _ = greatest * 2 ^ 1074 := by
        unfold greatest
        rw [twoTo_add, ← Nat.mul_assoc, twoTo_eq 1074]

theorem abs_exact_le {x : Float} (h : x.isFinite = true) : |exact x| ≤ greatest := by
  have hpos : (0 : Rat) < 2 ^ 1074 := by positivity
  have hunits : ((unitsOf x).natAbs : Rat) ≤ (greatest * 2 ^ 1074 : Nat) := Nat.cast_le.mpr (natAbs_unitsOf_le h)
  rw [Nat.cast_natAbs, Int.cast_abs, ← exact_mul_units h, abs_mul, abs_of_pos hpos, Nat.cast_mul, Nat.cast_pow,
    Nat.cast_ofNat] at hunits
  exact le_of_mul_le_mul_right hunits hpos

theorem exact_nearest_of_nonneg {q : Rat} (hq : 0 ≤ q) (h : (nearest q).isFinite = true) :
    exact (nearest q) * 2 ^ 1074 = settle (q * 2 ^ 1074) := by
  rw [exact_nearest h, settled_of_nonneg (mul_nonneg hq (by positivity))]

theorem exact_nearest_nonneg {q : Rat} (hq : 0 ≤ q) : 0 ≤ exact (nearest q) := by
  by_cases h : (nearest q).isFinite = true
  · have hpos : (0 : Rat) < 2 ^ 1074 := by positivity
    refine nonneg_of_mul_nonneg_left ?_ hpos
    rw [exact_nearest_of_nonneg hq h]
    exact_mod_cast settle_nonneg (mul_nonneg hq hpos.le)
  · exact (if_neg h : exact (nearest q) = 0).ge

/-- A number too small for its nearest double to be other than zero. -/
theorem nearest_eq_zero {q : Rat} (hq : 0 ≤ q) (h : q * 2 ^ 1074 < 1 / 2) : nearest q = 0 := by
  have hunits := settle_eq_zero (show 0 ≤ q * 2 ^ 1074 by positivity) h
  have hle := nearestBits_le q.num.natAbs q.den
  have hinfinity : infinityBits = 2047 * 2 ^ 52 := rfl
  have hmagnitude := magnitudeOfBits_nearestBits q.num.natAbs q.den_nz
  rw [natAbs_div_den, abs_of_nonneg hq, hunits, min_eq_right (Int.natCast_nonneg top),
    Int.natCast_eq_zero] at hmagnitude
  have hbits : nearestBits q.num.natAbs q.den = 0 := by
    generalize nearestBits q.num.natAbs q.den = bits at hle hmagnitude
    rw [hinfinity] at hle
    unfold magnitudeOfBits at hmagnitude
    split at hmagnitude
    · omega
    · have hpos := Nat.two_pow_pos (bits / 2 ^ 52 % 2 ^ 11 - 1)
      have := (Nat.mul_eq_zero.mp hmagnitude).resolve_right (Nat.ne_of_gt hpos)
      omega
  unfold nearest
  dsimp only
  rw [hbits, if_neg (not_lt.mpr (Rat.num_nonneg.mpr hq))]
  rfl

theorem overflow_le_two_pow : (overflow : Rat) ≤ 2 ^ 1024 := by
  have hnat : overflow ≤ 2 ^ 1024 :=
    calc overflow ≤ twoTo 54 * twoTo 970 := Nat.mul_le_mul_right _ (Nat.sub_le _ _)
      _ = 2 ^ 1024 := by rw [← twoTo_add, twoTo_eq]
  calc (overflow : Rat) ≤ ((2 ^ 1024 : Nat) : Rat) := Nat.cast_le.mpr hnat
    _ = 2 ^ 1024 := by rw [Nat.cast_pow, Nat.cast_ofNat]

theorem nearest_eq_infinity {q : Rat} (h : overflow ≤ q) : nearest q = infinity := by
  have hq : 0 ≤ q := (Nat.cast_nonneg overflow).trans h
  have hnot : ¬ nearestBits q.num.natAbs q.den < infinityBits := fun hlt =>
    absurd h (not_le.mpr ((isFinite_nearest_iff hq).mp ((isFinite_nearest q).mpr hlt)))
  have hbits := (nearestBits_le q.num.natAbs q.den).antisymm (not_lt.mp hnot)
  unfold nearest
  dsimp only
  rw [hbits, if_neg (not_lt.mpr (Rat.num_nonneg.mpr hq))]
  rfl

end Backpressure.Number.Binary64
