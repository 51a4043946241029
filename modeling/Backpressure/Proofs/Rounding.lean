import Mathlib.Data.Int.Log
import Backpressure.Proofs.Crossing
import Backpressure.Proofs.Differences

/-!
# Rounding to 53 bits

* `roundEven_div`, `roundEven_mono`, `roundEven_le_of_odd` : a quotient rounded to an integer;
* `scale` : the power of two that a magnitude is rounded to a multiple of, so that 53 bits are left or, where it is
  small, a whole number;
* `settle` : the magnitude so rounded. `settle_mono` : it keeps the order, `settle_of_lt` : a number of 53 bits stays
  as it is, `exists_significand` : what is left are 53 bits, `settle_error` : no number is off by more than one half of
  the power of two, `settle_mul_two_pow` : a factor that is a power of two comes out, `settle_settle_mul_two_pow` : and
  nothing is rounded twice, `top_le_settle_iff` : from where on 2^2098 is reached;
* `settled` : the same for numbers of either sign.
-/

namespace Backpressure.Number

theorem roundEven_div (n : Int) {d : Nat} (hd : 0 < d) : roundEven ((n : Rat) / d) = roundDiv n d := by
  obtain ⟨c, hn, hden⟩ := Rat.exists_eq_mul_div_num_and_eq_mul_div_den n (show (d : Int) ≠ 0 by omega)
  rw [Int.cast_natCast] at hn hden
  generalize (n : Rat) / d = q at hn hden ⊢
  have hc : 0 < c := by
    have hpos : 0 < c * (q.den : Int) := by omega
    exact Int.pos_of_mul_pos_left hpos (by exact_mod_cast q.den_pos)
  obtain ⟨k, rfl⟩ := Int.eq_ofNat_of_zero_le hc.le
  have hden' : d = q.den * k := by
    rw [Nat.mul_comm]
    exact_mod_cast hden
  rw [hn, hden', Int.mul_comm (k : Int)]
  exact (roundDiv_mul_mul q.num q.den (by exact_mod_cast hc)).symm

theorem roundEven_mono {p q : Rat} (h : p ≤ q) : roundEven p ≤ roundEven q := by
  have hp := roundDiv_mul_mul p.num p.den q.den_pos
  have hq := roundDiv_mul_mul q.num q.den p.den_pos
  unfold roundEven
  rw [← hp, ← hq, Nat.mul_comm q.den]
  exact roundDiv_mono ((Rat.le_iff p q).mp h) (Nat.mul_pos p.den_pos q.den_pos)

theorem roundEven_le_of_odd {q : Rat} {k : Int} (hk : k % 2 = 1) : roundEven q ≤ k ↔ 2 * q < 2 * k + 1 := by
  unfold roundEven
  rw [roundDiv_le_of_odd hk q.den_pos]
  have hden : (0 : Rat) < q.den := by exact_mod_cast q.den_pos
  have hscaled : (2 * q < 2 * k + 1) ↔ (2 * q.num : Rat) < (2 * k + 1) * q.den := by
    rw [← mul_lt_mul_iff_left₀ hden, mul_assoc, Rat.mul_den_eq_num]
  rw [hscaled]
  exact_mod_cast Iff.rfl

theorem roundEven_intCast (n : Int) : roundEven (n : Rat) = n :=
  Int.le_antisymm (roundEven_le le_rfl) (le_roundEven le_rfl)

namespace Binary64
open Float.Model Float.Model.UnpackedFloat

/-! ## Rounding to 53 bits -/

/-- The power of two that a positive rational number is rounded to a multiple of. -/
def scale (q : Rat) : Nat := (Int.log 2 q - 52).toNat

theorem scale_le {q : Rat} {k : Nat} (h : q < 2 ^ (53 + k)) : scale q ≤ k := by
  unfold scale
  rcases le_or_gt q 0 with hq | hq
  · rw [Int.log_of_right_le_zero 2 hq]
    omega
  · have hlog : Int.log 2 q < (53 + k : Nat) := by
      rw [← Int.lt_zpow_iff_log_lt one_lt_two hq, zpow_natCast]
      exact_mod_cast h
    omega

theorem lt_two_pow_scale (q : Rat) : q < 2 ^ (53 + scale q) := by
  have hlog : Int.log 2 q + 1 ≤ (53 + scale q : Nat) := by
    unfold scale
    omega
  calc q < ((2 : Nat) : Rat) ^ (Int.log 2 q + 1) := Int.lt_zpow_succ_log_self one_lt_two q
    _ ≤ ((2 : Nat) : Rat) ^ ((53 + scale q : Nat) : Int) := zpow_le_zpow_right₀ (by norm_num) hlog
    _ = 2 ^ (53 + scale q) := by rw [zpow_natCast, Nat.cast_ofNat]

theorem two_pow_scale_le {q : Rat} (h : scale q ≠ 0) : 2 ^ (52 + scale q) ≤ q := by
  by_contra hlt
  have hpred : 53 + (scale q - 1) = 52 + scale q := by omega
  have hle : scale q ≤ scale q - 1 := scale_le (by rw [hpred]; exact lt_of_not_ge hlt)
  omega

theorem scale_eq {q : Rat} {k : Nat} (hlt : q < 2 ^ (53 + k)) (hle : k = 0 ∨ 2 ^ (52 + k) ≤ q) : scale q = k := by
  refine (scale_le hlt).antisymm ?_
  rcases hle with rfl | hle
  · exact Nat.zero_le _
  · have hpow : (2 : Rat) ^ (52 + k) < 2 ^ (53 + scale q) := hle.trans_lt (lt_two_pow_scale q)
    have := (pow_lt_pow_iff_right₀ one_lt_two).mp hpow
    omega

theorem scale_mono {p q : Rat} (h : p ≤ q) : scale p ≤ scale q := scale_le (h.trans_lt (lt_two_pow_scale q))

/-- A magnitude rounded to 53 bits and to a whole number. -/
def settle (q : Rat) : Int := roundEven (q / 2 ^ scale q) * 2 ^ scale q

section Magnitudes

variable {p q : Rat}

theorem significand_le (q : Rat) : roundEven (q / 2 ^ scale q) ≤ 2 ^ 53 := by
  have hlt := lt_two_pow_scale q
  refine roundEven_le ?_
  rw [div_le_iff₀ (by positivity), Int.cast_pow, Int.cast_ofNat, ← pow_add]
  exact hlt.le

theorem le_significand (h : scale q ≠ 0) : 2 ^ 52 ≤ roundEven (q / 2 ^ scale q) := by
  refine le_roundEven ?_
  rw [le_div_iff₀ (by positivity), Int.cast_pow, Int.cast_ofNat, ← pow_add]
  exact two_pow_scale_le h

theorem settle_le (q : Rat) : settle q ≤ 2 ^ (53 + scale q) := by
  rw [pow_add]
  exact Int.mul_le_mul_of_nonneg_right (significand_le q) (by positivity)

theorem two_pow_le_settle (h : scale q ≠ 0) : 2 ^ (52 + scale q) ≤ settle q := by
  rw [pow_add]
  exact Int.mul_le_mul_of_nonneg_right (le_significand h) (by positivity)

/-- Rounding keeps the order: by the rounded quotients where the scale is the same, and otherwise by the scales. -/
theorem settle_mono (h : p ≤ q) : settle p ≤ settle q := by
  rcases (scale_mono h).eq_or_lt with heq | hlt
  · unfold settle
    rw [heq]
    refine Int.mul_le_mul_of_nonneg_right (roundEven_mono ?_) (by positivity)
    exact div_le_div_of_nonneg_right h (by positivity)
  · calc settle p ≤ 2 ^ (53 + scale p) := settle_le p
      _ ≤ 2 ^ (52 + scale q) := pow_le_pow_right₀ (by norm_num) (by omega)
      _ ≤ settle q := two_pow_le_settle (by omega)

/-- A number of 53 bits or fewer stays as it is. -/
theorem settle_of_lt {m : Nat} (hm : m < 2 ^ 53) (k : Nat) : settle (m * 2 ^ k) = m * 2 ^ k := by
  have hscale : scale (m * 2 ^ k) ≤ k := by
    refine scale_le ?_
    rw [pow_add]
    exact mul_lt_mul_of_pos_right (by exact_mod_cast hm) (by positivity)
  obtain ⟨j, hj⟩ := Nat.exists_eq_add_of_le hscale
  have hquotient : (m * 2 ^ k / 2 ^ scale (m * 2 ^ k) : Rat) = ((m * 2 ^ j : Int) : Rat) := by
    generalize scale (m * 2 ^ k) = i at hj
    rw [hj, pow_add]
    push_cast
    field_simp
  unfold settle
  rw [hquotient, roundEven_intCast]
  generalize scale (m * 2 ^ k) = i at hj
  rw [hj, pow_add]
  ring

theorem settle_zero : settle 0 = 0 := by simpa using settle_of_lt (m := 0) (by norm_num) 0

theorem settle_two_pow (k : Nat) : settle (2 ^ k) = 2 ^ k := by simpa using settle_of_lt (m := 1) (by norm_num) k

theorem settle_nonneg (h : 0 ≤ q) : 0 ≤ settle q := settle_zero ▸ settle_mono h

theorem settle_error (q : Rat) : |(settle q : Rat) - q| ≤ 2 ^ scale q / 2 := by
  have hpos : (0 : Rat) < 2 ^ scale q := by positivity
  have hround := mul_le_mul_of_nonneg_right (roundEven_error (q / 2 ^ scale q)) hpos.le
  have hscaled : (settle q : Rat) - q = (roundEven (q / 2 ^ scale q) - q / 2 ^ scale q) * 2 ^ scale q := by
    unfold settle
    push_cast
    rw [sub_mul, div_mul_cancel₀ _ hpos.ne']
  rw [hscaled, abs_mul, abs_of_pos hpos]
  linarith

/-- The error relative to a number with all its 53 bits. -/
theorem settle_relative_error (h : scale q ≠ 0) : |(settle q : Rat) - q| ≤ q / 2 ^ 53 := by
  refine (settle_error q).trans ?_
  have hlow := two_pow_scale_le h
  rw [pow_add] at hlow
  rw [div_le_div_iff₀ (by norm_num) (by norm_num)]
  linarith

theorem settle_eq_zero (hq : 0 ≤ q) (h : q < 1 / 2) : settle q = 0 := by
  have hscale : scale q ≤ 0 := scale_le (h.trans (by norm_num))
  have herror := settle_error q
  rw [Nat.le_zero.mp hscale, pow_zero, abs_le] at herror
  have hlt : (settle q : Rat) < (1 : Int) := by
    push_cast
    linarith [herror.2]
  have hnonneg := settle_nonneg hq
  have := Int.cast_lt.mp hlt
  omega

/-- A number with all its 53 bits is rounded to the same bits when it is multiplied by a power of two. -/
theorem settle_mul_two_pow (h : 2 ^ 52 ≤ q) (k : Nat) : settle (q * 2 ^ k) = settle q * 2 ^ k := by
  have hscale : scale (q * 2 ^ k) = scale q + k := by
    refine scale_eq ?_ (.inr ?_)
    · rw [← add_assoc, pow_add]
      exact mul_lt_mul_of_pos_right (lt_two_pow_scale q) (by positivity)
    · have hlow : 2 ^ (52 + scale q) ≤ q := by
        by_cases hzero : scale q = 0
        · rwa [hzero]
        · exact two_pow_scale_le hzero
      rw [← add_assoc, pow_add]
      exact mul_le_mul_of_nonneg_right hlow (by positivity)
  have hquotient : q * 2 ^ k / 2 ^ (scale q + k) = q / 2 ^ scale q := by
    rw [pow_add]
    exact mul_div_mul_right _ _ (by positivity)
  unfold settle
  rw [hscale, hquotient, pow_add, mul_assoc]

/-- What a number is rounded to has 53 bits, or all the fewer that a small number has. -/
theorem exists_significand (h : 0 ≤ q) : ∃ m : Nat, roundEven (q / 2 ^ scale q) = m ∧
    settle q = (m * 2 ^ scale q : Nat) ∧ m ≤ 2 ^ 53 ∧ (2 ^ 52 ≤ m ∨ scale q = 0) := by
  have hnonneg : 0 ≤ roundEven (q / 2 ^ scale q) := by
    refine le_roundEven ?_
    rw [Int.cast_zero]
    positivity
  obtain ⟨m, hm⟩ := Int.eq_ofNat_of_zero_le hnonneg
  refine ⟨m, hm, ?_, ?_, ?_⟩
  · unfold settle
    rw [hm]
    push_cast
    rfl
  · have hle := significand_le q
    rw [hm] at hle
    exact_mod_cast hle
  · by_cases hzero : scale q = 0
    · exact .inr hzero
    · have hle := le_significand hzero
      rw [hm] at hle
      exact .inl (by exact_mod_cast hle)

/-- What is rounded is not changed when it is rounded once more, also after a multiplication by a power of two. -/
theorem settle_settle_mul_two_pow (h : 0 ≤ q) (k : Nat) : settle (settle q * 2 ^ k) = settle q * 2 ^ k := by
  obtain ⟨m, -, hsettle, hm, -⟩ := exists_significand h
  rw [hsettle, Int.cast_natCast, Nat.cast_mul, Nat.cast_mul, Nat.cast_pow, Nat.cast_pow, Nat.cast_ofNat, Nat.cast_ofNat,
    mul_assoc, ← pow_add, mul_assoc, ← pow_add]
  rcases hm.eq_or_lt with rfl | hlt
  · rw [Nat.cast_pow, Nat.cast_pow, Nat.cast_ofNat, Nat.cast_ofNat, ← pow_add, ← pow_add]
    exact settle_two_pow _
  · exact settle_of_lt hlt _

/-- The numbers below 2^2098 are rounded to it from the middle between it and the number of 53 bits before it. -/
theorem top_le_settle_iff (q : Rat) : (top : Int) ≤ settle q ↔ overflow * 2 ^ 1074 ≤ q := by
  have htop : (top : Int) = 2 ^ 2098 := by
    unfold top
    rw [twoTo_eq, Nat.cast_pow, Nat.cast_ofNat]
  have hunits : (overflow : Rat) * 2 ^ 1074 = (2 ^ 54 - 1) * 2 ^ 2044 := by
    unfold overflow
    rw [twoTo_eq, twoTo_eq, Nat.cast_mul, Nat.cast_pow 2 970, Nat.cast_ofNat, Nat.cast_sub (by norm_num), Nat.cast_pow,
      Nat.cast_one, Nat.cast_ofNat, mul_assoc, ← pow_add]
  have hpos : (0 : Rat) < 2 ^ 2044 := by positivity
  rw [htop, hunits]
  rcases lt_trichotomy (scale q) 2045 with hscale | hscale | hscale
  · -- The number is less than 2^2097.
    have hsettle : settle q < 2 ^ 2098 :=
      calc settle q ≤ 2 ^ (53 + scale q) := settle_le q
        _ < 2 ^ 2098 := pow_lt_pow_right₀ (by norm_num) (by omega)
    have hq : q < (2 ^ 54 - 1) * 2 ^ 2044 :=
      calc q < 2 ^ (53 + scale q) := lt_two_pow_scale q
        _ ≤ 2 ^ (53 + 2044) := pow_le_pow_right₀ (by norm_num) (by omega)
        _ = 2 ^ 53 * 2 ^ 2044 := pow_add _ _ _
        _ ≤ (2 ^ 54 - 1) * 2 ^ 2044 := mul_le_mul_of_nonneg_right (by norm_num) hpos.le
    exact ⟨fun h => absurd hsettle h.not_gt, fun h => absurd hq h.not_gt⟩
  · -- Only here does the rounding decide.
    have hround := roundEven_le_of_odd (q := q / 2 ^ 2045) (show (2 ^ 53 - 1 : Int) % 2 = 1 by norm_num)
    have hsettle : settle q = roundEven (q / 2 ^ 2045) * 2 ^ 2045 := by
      unfold settle
      rw [hscale]
    have hbits : (2 ^ 2098 : Int) ≤ settle q ↔ ¬ roundEven (q / 2 ^ 2045) ≤ 2 ^ 53 - 1 := by
      rw [hsettle, show 2098 = 53 + 2045 from rfl, pow_add, mul_le_mul_iff_left₀ (by positivity)]
      omega
    have hdouble : 2 * (q / 2 ^ 2045) = q / 2 ^ 2044 := by
      rw [show 2045 = 2044 + 1 from rfl, pow_succ]
      field_simp
    rw [hbits, hround, hdouble, not_lt, ← le_div_iff₀ hpos]
    push_cast
    norm_num
  · have hsettle : (2 ^ 2098 : Int) ≤ settle q :=
      calc (2 ^ 2098 : Int) ≤ 2 ^ (52 + scale q) := pow_le_pow_right₀ (by norm_num) (by omega)
        _ ≤ settle q := two_pow_le_settle (by omega)
    have hq : (2 ^ 54 - 1) * 2 ^ 2044 ≤ q :=
      calc (2 ^ 54 - 1 : Rat) * 2 ^ 2044 ≤ 2 ^ 54 * 2 ^ 2044 := mul_le_mul_of_nonneg_right (by norm_num) hpos.le
        _ = 2 ^ (54 + 2044) := (pow_add _ _ _).symm
        _ ≤ 2 ^ (52 + scale q) := pow_le_pow_right₀ (by norm_num) (by omega)
        _ ≤ q := two_pow_scale_le (by omega)
    exact ⟨fun _ => hq, fun _ => hsettle⟩

end Magnitudes

/-- A number rounded to 53 bits and to a whole number. -/
def settled (q : Rat) : Int := if q < 0 then -settle (-q) else settle q

theorem settled_of_nonneg {q : Rat} (h : 0 ≤ q) : settled q = settle q := if_neg h.not_gt

theorem settled_of_nonpos {q : Rat} (h : q ≤ 0) : settled q = -settle (-q) := by
  rcases h.eq_or_lt with rfl | hlt
  · rw [settled_of_nonneg le_rfl, neg_zero, settle_zero, neg_zero]
  · exact if_pos hlt

theorem settled_mono {p q : Rat} (h : p ≤ q) : settled p ≤ settled q := by
  rcases le_total 0 p with hp | hp
  · rw [settled_of_nonneg hp, settled_of_nonneg (hp.trans h)]
    exact settle_mono h
  · rw [settled_of_nonpos hp]
    rcases le_total 0 q with hq | hq
    · rw [settled_of_nonneg hq]
      exact (neg_nonpos.mpr (settle_nonneg (neg_nonneg.mpr hp))).trans (settle_nonneg hq)
    · rw [settled_of_nonpos hq]
      exact neg_le_neg (settle_mono (neg_le_neg h))

theorem settled_apply (s : Sign) (n d : Nat) :
    settled ((s.apply n : Int) / (d : Rat)) = s.apply (settle ((n : Rat) / d)) := by
  have hpos : (0 : Rat) ≤ n / d := by positivity
  cases s with
  | positive => exact settled_of_nonneg hpos
  | negative =>
    show settled (((-n : Int) : Rat) / d) = -settle ((n : Rat) / d)
    rw [Int.cast_neg, Int.cast_natCast, neg_div, settled_of_nonpos (neg_nonpos.mpr hpos), neg_neg]

end Binary64

end Backpressure.Number
