import Mathlib
import Backpressure.Number.Scalar

/-!
# What the arithmetic of doubles does not do

* `isFinite_pack` : when a packed number is finite;
* `isSmall` : finite and less than 2^53, `isFinite_mul` : the product of two such numbers is finite;
* `Positive` : the sign bit is not set, `Positive.not_lt_zero` : such a number is not negative, and sums, quotients and
  squares keep it so.
-/

namespace Backpressure.Number.Binary64
open Float.Model Float.Model.UnpackedFloat

/-! ## Signs and exponents of packed numbers -/

/-- The sign of an unpacked number; a NaN counts as positive. -/
def signOf : UnpackedFloat → Sign
  | .notANumber => .positive
  | .infinity s | .zero s | .finite s _ _ _ => s

theorem signOf_unpack {b : BitVec Format.binary64.numBits} (h : unpackSign b = 0#1) :
    signOf (UnpackedFloat.unpack Format.binary64 b) = .positive := by
  have hsign : Sign.ofBitVec (unpackSign b) = .positive := by rw [h]; rfl
  unfold UnpackedFloat.unpack
  dsimp only
  rw [hsign]
  split
  · split <;> rfl
  · split
    · split <;> rfl
    · rfl

theorem unpackSign_pack {u : UnpackedFloat} (h : signOf u = .positive) :
    unpackSign (UnpackedFloat.pack Format.binary64 u) = 0#1 := by
  cases u with
  | notANumber => exact unpackSign_packComponents _ _ _
  | infinity s => cases h; exact unpackSign_packComponents _ _ _
  | zero s => cases h; exact unpackSign_packComponents _ _ _
  | finite s m e hm =>
    cases h
    unfold UnpackedFloat.pack
    dsimp only
    split
    · exact unpackSign_packComponents _ _ _
    · split
      · exact unpackSign_packComponents _ _ _
      · exact unpackSign_packComponents _ _ _

theorem isFinite_unpack (b : BitVec Format.binary64.numBits) :
    (UnpackedFloat.unpack Format.binary64 b).isFinite = !decide (unpackExponent b = -1#11) := by
  unfold UnpackedFloat.unpack
  dsimp only
  split
  · next h =>
    rw [decide_eq_true h]
    split <;> rfl
  · next h =>
    rw [decide_eq_false h]
    split
    · split <;> rfl
    · rfl

/-- Whether a number stays finite when it is packed. -/
def fits : UnpackedFloat → Bool
  | .notANumber | .infinity _ => false
  | .zero _ => true
  | .finite _ _ e _ => e ≤ 971

theorem isFinite_pack (u : UnpackedFloat) : (Float.Model.pack u).isFinite = fits u := by
  show (UnpackedFloat.unpack Format.binary64 (UnpackedFloat.pack Format.binary64 u)).isFinite = _
  rw [isFinite_unpack]
  cases u with
  | notANumber => rfl
  | infinity s => cases s <;> rfl
  | zero s => cases s <;> rfl
  | finite s m e hm =>
    have hbias : Format.binary64.exponentBias = 1023 := by decide
    unfold UnpackedFloat.pack fits
    dsimp only
    rw [hbias]
    split
    · next hlarge =>
      have hexponent : ¬ e ≤ 971 := by omega
      rw [decide_eq_false hexponent]
      cases s <;> rfl
    · next hsmall =>
      have hexponent : e ≤ 971 := by omega
      have hne : ∀ k : Nat, k + 1 < 2048 → BitVec.ofNat 11 k ≠ -1#11 := by
        intro k hk heq
        have hnat := congrArg BitVec.toNat heq
        rw [BitVec.toNat_ofNat, Nat.mod_eq_of_lt (by omega)] at hnat
        have hones : (-1#11).toNat = 2047 := by decide
        omega
      rw [decide_eq_true hexponent]
      split
      · rw [unpackExponent_packComponents, decide_eq_false (hne _ (by omega))]
        rfl
      · rw [unpackExponent_packComponents, decide_eq_false (hne 0 (by omega))]
        rfl

/-! ## Numbers with themselves and with zero -/

theorem beq_self_of_isFinite {x : Float} (h : x.isFinite = true) : (x == x) = true := by
  refine Float.beq_self_iff.mpr ?_
  rintro rfl
  cases h

/-- A number whose sign bit is not set; NaN is one. -/
def Positive (x : Float) : Prop := signOf x.toModel.unpack = .positive

theorem positive_ofModel_pack {u : UnpackedFloat} (h : signOf u = .positive) : Positive ⟨Float.Model.pack u⟩ :=
  signOf_unpack (unpackSign_pack h)

namespace Positive

variable {x y : Float}

theorem not_lt_zero (h : Positive x) : Scalar.lt x (Scalar.zero : Float) = false := by
  refine decide_eq_false fun hlt => ?_
  replace hlt : x.toModel.unpack.lt (Scalar.zero : Float).toModel.unpack = true := of_decide_eq_true hlt
  have hzero : (Scalar.zero : Float).toModel.unpack = .zero .positive := by rfl
  rw [hzero] at hlt
  unfold Positive at h
  cases hx : x.toModel.unpack with
  | notANumber => rw [hx] at hlt; cases hlt
  | infinity s => rw [hx] at h hlt; cases h; cases hlt
  | zero s => rw [hx] at hlt; cases hlt
  | finite s m e hm => rw [hx] at h hlt; cases h; cases hlt

theorem signOf_roundWithAccuracy (s : Sign) (m : Nat) (e : Int) (a : Accuracy) :
    signOf (roundWithAccuracy Format.binary64 s m e a) = s := by
  unfold roundWithAccuracy
  dsimp only
  split <;> rfl

theorem mul_self (x : Float) : Positive (x * x) := by
  refine positive_ofModel_pack ?_
  cases x.toModel.unpack with
  | notANumber => rfl
  | infinity s => cases s <;> rfl
  | zero s => cases s <;> rfl
  | finite s m e hm =>
    refine (signOf_roundWithAccuracy _ _ _ _).trans ?_
    cases s <;> rfl

theorem signOf_round (s : Sign) (m : Nat) (e : Int) : signOf (round Format.binary64 s m e) = s :=
  signOf_roundWithAccuracy s _ _ _

theorem signOf_normalize {m : Int} (h : 0 ≤ m) (e : Int) :
    signOf (UnpackedFloat.normalize Format.binary64 m e .positive) = .positive := by
  unfold UnpackedFloat.normalize
  split
  · next hlt =>
    have := Int.compare_eq_lt.mp hlt
    omega
  · rfl
  · exact signOf_round _ _ _

theorem add (hx : Positive x) (hy : Positive y) : Positive (x + y) := by
  refine positive_ofModel_pack ?_
  unfold Positive at hx hy
  generalize x.toModel.unpack = u at hx ⊢
  generalize y.toModel.unpack = v at hy ⊢
  cases u with
  | notANumber => rfl
  | infinity s => cases hx; cases v <;> cases hy <;> rfl
  | zero s => cases hx; cases v <;> cases hy <;> rfl
  | finite s m e hm =>
    cases hx
    cases v with
    | finite s' m' e' hm' =>
      cases hy
      refine signOf_normalize ?_ _
      exact Int.add_nonneg (Int.natCast_nonneg _) (Int.natCast_nonneg _)
    | _ => cases hy; rfl

theorem div (hx : Positive x) (hy : Positive y) : Positive (x / y) := by
  refine positive_ofModel_pack ?_
  unfold Positive at hx hy
  generalize x.toModel.unpack = u at hx ⊢
  generalize y.toModel.unpack = v at hy ⊢
  cases u with
  | notANumber => rfl
  | infinity s => cases hx; cases v <;> cases hy <;> rfl
  | zero s => cases hx; cases v <;> cases hy <;> rfl
  | finite s m e hm =>
    cases hx
    cases v with
    | finite s' m' e' hm' =>
      cases hy
      exact signOf_roundWithAccuracy _ _ _ _
    | _ => cases hy; rfl

end Positive

/-! ## Products of small numbers -/

/-- A number whose magnitude is that of a significand times a power of two that is at most one. -/
def isSmall : UnpackedFloat → Bool
  | .notANumber | .infinity _ => false
  | .zero _ => true
  | .finite _ m e _ => m.log2 ≤ 52 && e ≤ 0

theorem lt_two_pow_of_log2_lt {n k : Nat} (h : n.log2 < k) : n < 2 ^ k :=
  Nat.lt_of_lt_of_le Nat.lt_log2_self (Nat.pow_le_pow_right (by decide) h)

theorem log2_le_of_lt {n k : Nat} (h : n < 2 ^ (k + 1)) : n.log2 ≤ k := by
  by_cases hzero : n = 0
  · simp [hzero]
  · have := (Nat.log2_lt hzero).mpr h
    omega

theorem shiftRight_mantissa (em : ExtendedMantissa) (k : Nat) : (em >>> k).mantissa = em.mantissa / 2 ^ k := by
  induction k with
  | zero => exact (Nat.div_one _).symm
  | succ k ih =>
    show (em >>> k).mantissa / 2 = _
    rw [ih, Nat.div_div_eq_div_mul, Nat.pow_succ]

theorem roundedMantissa_le (em : ExtendedMantissa) : em.roundedMantissa ≤ em.mantissa + 1 := by
  obtain ⟨m, roundBit, stickyBit⟩ := em
  cases roundBit <;> cases stickyBit <;>
    simp only [ExtendedMantissa.roundedMantissa, ExtendedMantissa.accuracy, Accuracy.roundToNearestEven] <;> omega

/-- Rounding a number of at most 106 bits that is not large does not make it infinite. -/
theorem fits_roundWithAccuracy (s : Sign) {m : Nat} {e : Int} (a : Accuracy) (hm : m.log2 ≤ 105) (he : e ≤ 0) :
    fits (roundWithAccuracy Format.binary64 s m e a) = true := by
  have htarget : ∀ t, Format.binary64.targetExponent t = max (t - 53) (-1074) := fun t => rfl
  have hmantissa : (shiftToTargetExponent Format.binary64 m e a).1.mantissa ≤ m := by
    unfold shiftToTargetExponent shiftToExponent
    dsimp only
    rw [shiftRight_mantissa]
    refine Nat.le_trans (Nat.div_le_self _ _) ?_
    cases a with
    | exact => exact Nat.le_refl m
    | inexact o => cases o <;> exact Nat.le_refl m
  have hrounded := roundedMantissa_le (shiftToTargetExponent Format.binary64 m e a).1
  have hexponent : (shiftToTargetExponent Format.binary64 m e a).2 ≤ 53 := by
    show e + ((Format.binary64.targetExponent (totalExponent m e) - e).toNat : Int) ≤ 53
    rw [htarget]
    unfold totalExponent
    omega
  unfold roundWithAccuracy
  generalize shiftToTargetExponent Format.binary64 m e a = first at hmantissa hrounded hexponent ⊢
  obtain ⟨em, e₁⟩ := first
  dsimp only at hmantissa hrounded hexponent ⊢
  have hlog : em.roundedMantissa.log2 ≤ 106 := by
    have hlt : m < 2 ^ 106 := lt_two_pow_of_log2_lt (by omega)
    exact log2_le_of_lt (by omega)
  have hlast : (shiftToTargetExponent Format.binary64 em.roundedMantissa e₁ .exact).2 ≤ 971 := by
    show e₁ + ((Format.binary64.targetExponent (totalExponent em.roundedMantissa e₁) - e₁).toNat : Int) ≤ 971
    rw [htarget]
    unfold totalExponent
    omega
  split
  · rfl
  · exact decide_eq_true hlast

/-- The product of two small numbers is finite. -/
theorem isFinite_mul {x y : Float} (hx : isSmall x.toModel.unpack = true) (hy : isSmall y.toModel.unpack = true) :
    (x * y).isFinite = true := by
  refine (isFinite_pack _).trans ?_
  generalize x.toModel.unpack = u at hx ⊢
  generalize y.toModel.unpack = v at hy ⊢
  cases u with
  | notANumber => cases hx
  | infinity s => cases hx
  | zero s => cases v <;> first | rfl | cases hy
  | finite s m e hm =>
    cases v with
    | notANumber => cases hy
    | infinity s' => cases hy
    | zero s' => rfl
    | finite s' m' e' hm' =>
      simp only [isSmall, Bool.and_eq_true, decide_eq_true_eq] at hx hy
      have hlt : m < 2 ^ 53 := lt_two_pow_of_log2_lt (by omega)
      have hlt' : m' < 2 ^ 53 := lt_two_pow_of_log2_lt (by omega)
      have hprod : m * m' < 2 ^ 106 := by
        have := Nat.mul_lt_mul'' hlt hlt'
        omega
      exact fits_roundWithAccuracy _ _ (log2_le_of_lt hprod) (by omega)

/-! ## Numbers from their bits -/

theorem toNat_unpackExponent (b : BitVec Format.binary64.numBits) :
    (unpackExponent b).toNat = b.toNat / 2 ^ 52 % 2 ^ 11 := by
  unfold unpackExponent
  rw [BitVec.toNat_cast, BitVec.extractLsb_toNat, Nat.shiftRight_eq_div_pow]
  rfl

theorem isSmall_unpack {b : BitVec Format.binary64.numBits} (h : (unpackExponent b).toNat ≤ 1075) :
    isSmall (UnpackedFloat.unpack Format.binary64 b) = true := by
  have hbias : Format.binary64.exponentBias = 1023 := by decide
  have hnot : unpackExponent b ≠ -1#11 := by
    intro heq
    rw [heq] at h
    exact absurd h (by decide)
  have hmantissa : (unpackMantissa b).toNat < 2 ^ 52 := (unpackMantissa b).isLt
  have hnormal : (1#1 ++ unpackMantissa b).toNat < 2 ^ 53 := (1#1 ++ unpackMantissa b).isLt
  unfold UnpackedFloat.unpack
  dsimp only
  rw [if_neg hnot, hbias]
  split
  · next hzero =>
    split
    · rfl
    · simp only [isSmall, Bool.and_eq_true, decide_eq_true_eq]
      refine ⟨log2_le_of_lt (by omega), ?_⟩
      rw [hzero]
      decide
  · simp only [isSmall, Bool.and_eq_true, decide_eq_true_eq]
    refine ⟨log2_le_of_lt hnormal, ?_⟩
    show ((unpackExponent b).toNat : Int) - (1023 + 52) ≤ 0
    omega

theorem isSmall_pack {u : UnpackedFloat} (h : isSmall u = true) : isSmall (Float.Model.pack u).unpack = true := by
  refine isSmall_unpack ?_
  show (unpackExponent (UnpackedFloat.pack Format.binary64 u)).toNat ≤ 1075
  cases u with
  | notANumber => cases h
  | infinity s => cases h
  | zero s => cases s <;> decide
  | finite s m e hm =>
    have hbias : Format.binary64.exponentBias = 1023 := by decide
    simp only [isSmall, Bool.and_eq_true, decide_eq_true_eq] at h
    unfold UnpackedFloat.pack
    dsimp only
    rw [hbias, if_neg (by omega)]
    split
    · rw [unpackExponent_packComponents, BitVec.toNat_ofNat]
      exact Nat.le_trans (Nat.mod_le _ _) (by omega)
    · rw [unpackExponent_packComponents]
      decide

theorem fits_unpack (b : BitVec Format.binary64.numBits) :
    fits (UnpackedFloat.unpack Format.binary64 b) = !decide (unpackExponent b = -1#11) := by
  have hbias : Format.binary64.exponentBias = 1023 := by decide
  unfold UnpackedFloat.unpack
  dsimp only
  split
  · next h =>
    rw [decide_eq_true h]
    split <;> rfl
  · next h =>
    have hlt : (unpackExponent b).toNat < 2 ^ 11 := (unpackExponent b).isLt
    have hne : (unpackExponent b).toNat ≠ 2047 := fun heq => h (BitVec.eq_of_toNat_eq heq)
    have hle : ((unpackExponent b).toNat : Int) - (1023 + 52) ≤ 971 := by omega
    rw [decide_eq_false h, hbias]
    split
    · next hzero =>
      split
      · rfl
      · rw [hzero]
        rfl
    · exact decide_eq_true hle

end Backpressure.Number.Binary64
