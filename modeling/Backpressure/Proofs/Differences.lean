import Backpressure.Proofs.Nearest

/-!
# Differences of doubles

A finite double is a whole number of units of 2^-1074. The difference of two finite doubles is the difference of these
numbers rounded to 53 bits, so that it grows with the first of them and shrinks with the second.

* `units` : an unpacked number in these units, `compare_eq` : numbers compare as their units do;
* `significant` : a natural number rounded to 53 bits, `significant_mono`;
* `units_round`, `units_unpack_pack` : what rounding and packing do to the units;
* `unitsOf_sub` : the units of a difference;
* `le_sub_of_not_sub_lt`, `sub_self_lt` : what follows for differences that are compared with a third number.
-/

namespace Backpressure.Number

theorem roundDiv_mono {m n : Int} (h : m ≤ n) {d : Nat} (hd : 0 < d) : roundDiv m d ≤ roundDiv n d := by
  have hm : (d : Int) * (m / d) + m % d = m := Int.mul_ediv_add_emod m d
  have hn : (d : Int) * (n / d) + n % d = n := Int.mul_ediv_add_emod n d
  have hle : m / (d : Int) ≤ n / d := Int.ediv_le_ediv (by omega) h
  unfold roundDiv
  dsimp only
  generalize m / (d : Int) = p at hm hle ⊢
  generalize n / (d : Int) = q at hn hle ⊢
  rcases Int.lt_or_eq_of_le hle with hlt | rfl
  · split <;> split <;> (try split) <;> (try split) <;> omega
  · split <;> split <;> (try split) <;> (try split) <;> omega

theorem roundDiv_mul (k : Int) {d : Nat} (hd : 0 < d) : roundDiv (k * d) d = k :=
  Int.le_antisymm (roundDiv_le hd (Int.le_refl _)) (le_roundDiv hd (Int.le_refl _))

theorem roundDiv_mul_mul (n : Int) (d : Nat) {c : Nat} (hc : 0 < c) : roundDiv (n * c) (d * c) = roundDiv n d := by
  have hc' : (0 : Int) < c := by omega
  have hrest : n * c % (d * c) = n % d * c := by
    rw [Int.mul_comm n, Int.mul_comm (d : Int), Int.mul_emod_mul_of_pos _ _ hc', Int.mul_comm]
  unfold roundDiv
  dsimp only
  rw [Int.natCast_mul, Int.mul_ediv_mul_of_pos_left _ _ hc', hrest]
  have hcompare : ∀ a b : Int, 2 * (a * c) < b * c ↔ 2 * a < b := by
    intro a b
    rw [← Int.mul_assoc]
    exact Int.mul_lt_mul_right hc'
  have hcompare' : ∀ a b : Int, b * c < 2 * (a * c) ↔ b < 2 * a := by
    intro a b
    rw [← Int.mul_assoc]
    exact Int.mul_lt_mul_right hc'
  simp only [hcompare, hcompare']

namespace Binary64
open Float.Model Float.Model.UnpackedFloat

/-! ## Numbers as they are packed -/

/-- A significand and an exponent as they stand in a packed number. -/
structure Canonical (m : Nat) (e : Int) : Prop where
  lt : m < 2 ^ 53
  le : -1074 ≤ e
  normal : 2 ^ 52 ≤ m ∨ e = -1074

theorem toNat_one_append (b : BitVec 52) : (1#1 ++ b).toNat = 2 ^ 52 + b.toNat := by
  rw [BitVec.toNat_append, ← Nat.shiftLeft_add_eq_or_of_lt b.isLt]
  rfl

/-- A number that is not NaN and, if it is finite and not zero, canonical. -/
def Rounded : UnpackedFloat → Prop
  | .notANumber => False
  | .infinity _ | .zero _ => True
  | .finite _ m e _ => Canonical m e

theorem rounded_unpack {b : BitVec Format.binary64.numBits}
    (h : UnpackedFloat.unpack Format.binary64 b ≠ .notANumber) : Rounded (UnpackedFloat.unpack Format.binary64 b) := by
  have hbias : Format.binary64.exponentBias = 1023 := by decide
  have hmantissa : (unpackMantissa b).toNat < 2 ^ 52 := (unpackMantissa b).isLt
  unfold UnpackedFloat.unpack at h ⊢
  dsimp only at h ⊢
  rw [hbias] at h ⊢
  split
  · next hones =>
    rw [if_pos hones] at h
    split
    · trivial
    · next hpayload => exact absurd (if_neg hpayload) h
  · split
    · next hzero =>
      split
      · trivial
      · rw [hzero]
        exact ⟨by omega, by decide, .inr (by decide)⟩
    · next hnonzero =>
      have hpos : (unpackExponent b).toNat ≠ 0 := fun heq => hnonzero (BitVec.eq_of_toNat_eq heq)
      refine ⟨(1#1 ++ unpackMantissa b).isLt, ?_, .inl ?_⟩
      · show -1074 ≤ ((unpackExponent b).toNat : Int) - (1023 + 52)
        omega
      · rw [toNat_one_append]
        exact Nat.le_add_right _ _

/-- The magnitude of a finite number in units of 2^-1074. -/
def magnitude (m : Nat) (e : Int) : Nat := m * 2 ^ (e + 1074).toNat

/-- What an infinity counts for in these units, 2^1024. -/
def top : Nat := twoTo 2098

theorem twoTo_mono {j k : Nat} (h : j ≤ k) : twoTo j ≤ twoTo k := Nat.pow_le_pow_right (by decide) h

theorem two_pow_le_top {k : Nat} (h : k ≤ 2098) : 2 ^ k ≤ top := twoTo_mono h

theorem top_le_two_pow {k : Nat} (h : 2098 ≤ k) : top ≤ 2 ^ k := twoTo_mono h

/-- A number in units of 2^-1074. -/
def units : UnpackedFloat → Int
  | .notANumber | .zero _ => 0
  | .infinity s => s.apply top
  | .finite s m e _ => s.apply (magnitude m e)

theorem magnitude_pos {m : Nat} (hm : 0 < m) (e : Int) : 0 < magnitude m e := Nat.mul_pos hm (Nat.two_pow_pos _)

theorem magnitude_add {m : Nat} {e : Int} (k : Nat) (he : -1074 ≤ e) :
    magnitude m (e + k) = magnitude (m * 2 ^ k) e := by
  unfold magnitude
  rw [Nat.mul_assoc, ← Nat.pow_add]
  congr 2
  omega

/-- A greater exponent makes a greater magnitude: the significand of the greater one has 53 bits. -/
theorem Canonical.magnitude_lt {m n : Nat} {e f : Int} (hm : Canonical m e) (hn : Canonical n f) (h : e < f) :
    magnitude m e < magnitude n f := by
  have hnormal : 2 ^ 52 ≤ n := by
    rcases hn.normal with hnormal | hleast
    · exact hnormal
    · have := hm.le
      omega
  have hle := hm.le
  have hexponent : (f + 1074).toNat = (f - e - 1).toNat + 1 + (e + 1074).toNat := by omega
  calc magnitude m e < 2 ^ 53 * 2 ^ (e + 1074).toNat := Nat.mul_lt_mul_of_pos_right hm.lt (Nat.two_pow_pos _)
    _ = 2 ^ 52 * 2 ^ (1 + (e + 1074).toNat) := by rw [← Nat.pow_add, ← Nat.pow_add, ← Nat.add_assoc]
    _ ≤ n * 2 ^ (f + 1074).toNat :=
      Nat.mul_le_mul hnormal (Nat.pow_le_pow_right (by decide) (by omega))

theorem Canonical.magnitude_lt_top {m : Nat} {e : Int} (h : Canonical m e) (he : e ≤ 971) : magnitude m e < top := by
  have hle := h.le
  calc magnitude m e < 2 ^ 53 * 2 ^ (e + 1074).toNat := Nat.mul_lt_mul_of_pos_right h.lt (Nat.two_pow_pos _)
    _ = 2 ^ (53 + (e + 1074).toNat) := (Nat.pow_add _ _ _).symm
    _ ≤ top := two_pow_le_top (by omega)

theorem Canonical.top_le_magnitude {m : Nat} {e : Int} (h : Canonical m e) (he : 971 < e) : top ≤ magnitude m e := by
  have hnormal : 2 ^ 52 ≤ m := by
    rcases h.normal with hnormal | hleast
    · exact hnormal
    · omega
  calc top ≤ 2 ^ (52 + (e + 1074).toNat) := top_le_two_pow (by omega)
    _ = 2 ^ 52 * 2 ^ (e + 1074).toNat := Nat.pow_add _ _ _
    _ ≤ m * 2 ^ (e + 1074).toNat := Nat.mul_le_mul_right _ hnormal

/-- Canonical magnitudes compare as their exponents do, and then as their significands. -/
theorem Canonical.compare_magnitude {m n : Nat} {e f : Int} (hm : Canonical m e) (hn : Canonical n f) :
    (compare e f).then (compare m n) = compare (magnitude m e : Int) (magnitude n f) := by
  rcases Int.lt_trichotomy e f with hef | rfl | hef
  · have hlt : (magnitude m e : Int) < magnitude n f := by exact_mod_cast hm.magnitude_lt hn hef
    rw [Int.compare_eq_lt.mpr hef, Int.compare_eq_lt.mpr hlt]
    rfl
  · have hpos : 0 < 2 ^ (e + 1074).toNat := Nat.two_pow_pos _
    rw [show compare e e = .eq from Int.compare_eq_eq.mpr rfl]
    show compare m n = _
    rcases Nat.lt_trichotomy m n with hmn | rfl | hmn
    · have hlt : (magnitude m e : Int) < magnitude n e := by exact_mod_cast Nat.mul_lt_mul_of_pos_right hmn hpos
      rw [Nat.compare_eq_lt.mpr hmn, Int.compare_eq_lt.mpr hlt]
    · rw [Nat.compare_eq_eq.mpr rfl, Int.compare_eq_eq.mpr rfl]
    · have hlt : (magnitude n e : Int) < magnitude m e := by exact_mod_cast Nat.mul_lt_mul_of_pos_right hmn hpos
      rw [Nat.compare_eq_gt.mpr hmn, Int.compare_eq_gt.mpr hlt]
  · have hlt : (magnitude n f : Int) < magnitude m e := by exact_mod_cast hn.magnitude_lt hm hef
    rw [Int.compare_eq_gt.mpr hef, Int.compare_eq_gt.mpr hlt]
    rfl

/-! ## Packing -/

theorem unpack_pack {s : Sign} {m : Nat} {e : Int} (hm : 0 < m) (h : Canonical m e) (he : e ≤ 971) :
    UnpackedFloat.unpack Format.binary64 (UnpackedFloat.pack Format.binary64 (.finite s m e hm)) =
      .finite s m e hm := by
  have hbias : Format.binary64.exponentBias = 1023 := by decide
  have hsign : Sign.ofBitVec s.toBitVec = s := by cases s <;> rfl
  have hle := h.le
  have hlt := h.lt
  unfold UnpackedFloat.pack
  dsimp only
  rw [hbias, if_neg (by omega)]
  by_cases hnormal : 2 ^ 52 ≤ m
  · have hlog : m.log2 = 52 := (Nat.log2_eq_iff (by omega)).mpr ⟨hnormal, hlt⟩
    generalize hbiased : (e + (1023 : Nat) + (52 : Nat)).toNat = biased
    have htoNat : (BitVec.ofNat 11 biased).toNat = biased := by
      rw [BitVec.toNat_ofNat, Nat.mod_eq_of_lt (by omega)]
    have hones : BitVec.ofNat 11 biased ≠ -1#11 := by
      intro heq
      rw [heq] at htoNat
      have : (-1#11).toNat = 2047 := by decide
      omega
    have hzero : BitVec.ofNat 11 biased ≠ 0#11 := by
      intro heq
      rw [heq] at htoNat
      have : (0#11).toNat = 0 := by decide
      omega
    rw [if_pos (by rw [hlog]; rfl)]
    unfold UnpackedFloat.unpack
    simp only [unpackExponent_packComponents, unpackMantissa_packComponents, unpackSign_packComponents, hsign,
      if_neg hones, if_neg hzero, htoNat, toNat_one_append, hbias, UnpackedFloat.finite.injEq, true_and]
    refine ⟨?_, by omega⟩
    rw [BitVec.toNat_ofNat]
    omega
  · have hleast : e = -1074 := h.normal.resolve_left hnormal
    have hlog : m.log2 < 52 := (Nat.log2_lt (by omega)).mpr (by omega)
    have hmantissa : BitVec.ofNat 52 m ≠ 0#52 := by
      intro heq
      have hnat := congrArg BitVec.toNat heq
      rw [BitVec.toNat_ofNat, Nat.mod_eq_of_lt (by omega)] at hnat
      exact Nat.ne_of_gt hm hnat
    have hbits : Format.binary64.mantissaBits = 53 := by decide
    rw [if_neg (by omega)]
    unfold UnpackedFloat.unpack
    simp only [unpackExponent_packComponents, unpackMantissa_packComponents, unpackSign_packComponents, hsign,
      hbias]
    rw [if_neg (by decide), if_pos trivial, dif_neg hmantissa]
    simp only [BitVec.toNat_ofNat, UnpackedFloat.finite.injEq, true_and]
    exact ⟨Nat.mod_eq_of_lt (by omega), by rw [hleast]; decide⟩

/-- Units that are too many for a finite number count as those of an infinity. -/
def cut (z : Int) : Int := max (-top) (min top z)

theorem cut_mono {a b : Int} (h : a ≤ b) : cut a ≤ cut b := by
  unfold cut
  omega

theorem cut_apply (s : Sign) (n : Nat) : cut (s.apply n) = s.apply (min n top : Nat) := by
  unfold cut
  cases s
  · show max (-(top : Int)) (min top (-n)) = -((min n top : Nat) : Int)
    omega
  · show max (-(top : Int)) (min top n) = ((min n top : Nat) : Int)
    omega

theorem units_unpack_pack {u : UnpackedFloat} (h : Rounded u) :
    (Float.Model.pack u).unpack ≠ .notANumber ∧ units (Float.Model.pack u).unpack = cut (units u) := by
  show UnpackedFloat.unpack Format.binary64 (UnpackedFloat.pack Format.binary64 u) ≠ _ ∧
    units (UnpackedFloat.unpack Format.binary64 (UnpackedFloat.pack Format.binary64 u)) = _
  cases u with
  | notANumber => exact h.elim
  | infinity s =>
    have hunpack : UnpackedFloat.unpack Format.binary64 (UnpackedFloat.pack Format.binary64 (.infinity s)) =
        .infinity s := by cases s <;> rfl
    rw [hunpack]
    refine ⟨nofun, ?_⟩
    show s.apply top = cut (s.apply top)
    rw [cut_apply, Nat.min_self]
  | zero s =>
    have hunpack : UnpackedFloat.unpack Format.binary64 (UnpackedFloat.pack Format.binary64 (.zero s)) = .zero s := by
      cases s <;> rfl
    rw [hunpack]
    refine ⟨nofun, ?_⟩
    show Sign.positive.apply (0 : Nat) = cut (Sign.positive.apply (0 : Nat))
    rw [cut_apply, Nat.zero_min]
  | finite s m e hm =>
    have hcanonical : Canonical m e := h
    by_cases he : e ≤ 971
    · rw [unpack_pack hm hcanonical he]
      refine ⟨nofun, ?_⟩
      show s.apply (magnitude m e) = cut (s.apply (magnitude m e))
      rw [cut_apply, Nat.min_eq_left (Nat.le_of_lt (hcanonical.magnitude_lt_top he))]
    · have hunpack : UnpackedFloat.unpack Format.binary64 (UnpackedFloat.pack Format.binary64 (.finite s m e hm)) =
          .infinity s := by
        have hbias : Format.binary64.exponentBias = 1023 := by decide
        unfold UnpackedFloat.pack
        dsimp only
        rw [hbias, if_pos (by omega)]
        cases s <;> rfl
      rw [hunpack]
      refine ⟨nofun, ?_⟩
      show s.apply top = cut (s.apply (magnitude m e))
      rw [cut_apply, Nat.min_eq_right (hcanonical.top_le_magnitude (by omega))]

/-! ## Rounding to 53 bits -/

theorem one_le_roundDiv_log2 {n : Nat} (hn : n ≠ 0) : 1 ≤ roundDiv n (2 ^ (n.log2 - 52)) := by
  refine le_roundDiv (Nat.two_pow_pos _) ?_
  have hle : 1 * 2 ^ (n.log2 - 52) ≤ n :=
    calc 1 * 2 ^ (n.log2 - 52) ≤ 2 ^ n.log2 := by
          rw [Nat.one_mul]
          exact Nat.pow_le_pow_right (by decide) (Nat.sub_le _ _)
      _ ≤ n := Nat.log2_self_le hn
  exact_mod_cast hle

/-- A natural number rounded to 53 bits. -/
def significant (n : Nat) : Int := roundDiv n (2 ^ (n.log2 - 52)) * (2 ^ (n.log2 - 52) : Nat)

theorem significant_of_log2_le {n : Nat} (h : n.log2 ≤ 52) : significant n = n := by
  unfold significant
  rw [Nat.sub_eq_zero_of_le h]
  simpa using roundDiv_mul (n : Int) Nat.one_pos

theorem two_pow_log2_le_significant {n : Nat} (hn : n ≠ 0) : 2 ^ n.log2 ≤ significant n := by
  have hself : 2 ^ n.log2 ≤ n := Nat.log2_self_le hn
  by_cases hlog : n.log2 ≤ 52
  · rw [significant_of_log2_le hlog]
    exact_mod_cast hself
  · have hpow : 2 ^ n.log2 = 2 ^ 52 * 2 ^ (n.log2 - 52) := by rw [← Nat.pow_add, Nat.add_sub_cancel' (by omega)]
    have hcast : (2 ^ n.log2 : Int) = 2 ^ 52 * (2 ^ (n.log2 - 52) : Nat) := by exact_mod_cast hpow
    unfold significant
    rw [hcast]
    exact Int.mul_le_mul_of_nonneg_right (le_roundDiv_log2 (by omega)) (Int.natCast_nonneg _)

theorem significant_le_two_pow (n : Nat) : significant n ≤ 2 ^ (n.log2 + 1) := by
  have hself : n < 2 ^ (n.log2 + 1) := Nat.lt_log2_self
  by_cases hlog : n.log2 ≤ 52
  · rw [significant_of_log2_le hlog]
    exact_mod_cast Nat.le_of_lt hself
  · have hpow : 2 ^ (n.log2 + 1) = 2 ^ 53 * 2 ^ (n.log2 - 52) := by
      rw [← Nat.pow_add]
      congr 1
      omega
    have hcast : (2 ^ (n.log2 + 1) : Int) = 2 ^ 53 * (2 ^ (n.log2 - 52) : Nat) := by exact_mod_cast hpow
    unfold significant
    rw [hcast]
    exact Int.mul_le_mul_of_nonneg_right (roundDiv_log2_le n) (Int.natCast_nonneg _)

/-- Rounding keeps the order: within one power of two by the rounded quotients, and otherwise by the powers. -/
theorem significant_mono {m n : Nat} (h : m ≤ n) : significant m ≤ significant n := by
  by_cases hm : m = 0
  · subst hm
    rw [significant_of_log2_le (by decide)]
    by_cases hn : n = 0
    · rw [hn, significant_of_log2_le (by decide)]
    · exact Int.le_trans (by positivity) (two_pow_log2_le_significant hn)
  · have hn : n ≠ 0 := by omega
    have hlog : m.log2 ≤ n.log2 := (Nat.le_log2 hn).mpr (Nat.le_trans (Nat.log2_self_le hm) h)
    rcases Nat.lt_or_eq_of_le hlog with hlt | heq
    · calc significant m ≤ 2 ^ (m.log2 + 1) := significant_le_two_pow m
        _ ≤ 2 ^ n.log2 := by exact_mod_cast Nat.pow_le_pow_right (by decide) hlt
        _ ≤ significant n := two_pow_log2_le_significant hn
    · unfold significant
      rw [heq]
      exact Int.mul_le_mul_of_nonneg_right (roundDiv_mono (by exact_mod_cast h) (Nat.two_pow_pos _))
        (Int.natCast_nonneg _)

/-- An integer rounded to 53 bits. -/
def rounded (z : Int) : Int := z.sign * significant z.natAbs

theorem rounded_natCast (n : Nat) : rounded n = significant n := by
  unfold rounded
  rw [Int.natAbs_natCast]
  by_cases hn : n = 0
  · subst hn
    rw [significant_of_log2_le (by decide)]
    rfl
  · rw [Int.sign_eq_one_of_pos (by omega), Int.one_mul]

theorem rounded_neg (z : Int) : rounded (-z) = -rounded z := by
  unfold rounded
  rw [Int.sign_neg, Int.natAbs_neg, Int.neg_mul]

theorem significant_nonneg (n : Nat) : 0 ≤ significant n := by
  have := significant_mono (Nat.zero_le n)
  rwa [significant_of_log2_le (by decide)] at this

theorem rounded_mono {a b : Int} (h : a ≤ b) : rounded a ≤ rounded b := by
  have hnat : ∀ z : Int, 0 ≤ z → ∃ n : Nat, z = n := fun z hz => ⟨z.toNat, (Int.toNat_of_nonneg hz).symm⟩
  rcases Int.le_total 0 a with ha | ha
  · obtain ⟨m, rfl⟩ := hnat a ha
    obtain ⟨n, rfl⟩ := hnat b (Int.le_trans ha h)
    rw [rounded_natCast, rounded_natCast]
    exact significant_mono (by exact_mod_cast h)
  · obtain ⟨m, hm⟩ := hnat (-a) (by omega)
    have hra : rounded a = -significant m := by rw [← rounded_natCast, ← hm, rounded_neg, Int.neg_neg]
    rcases Int.le_total 0 b with hb | hb
    · obtain ⟨n, rfl⟩ := hnat b hb
      have := significant_nonneg m
      have := significant_nonneg n
      rw [hra, rounded_natCast]
      omega
    · obtain ⟨n, hn⟩ := hnat (-b) (by omega)
      have hrb : rounded b = -significant n := by rw [← rounded_natCast, ← hn, rounded_neg, Int.neg_neg]
      rw [hra, hrb]
      exact Int.neg_le_neg (significant_mono (by omega))

/-- Of what is shifted out of a significand, the first bit and whether any other is set are kept. -/
theorem shiftRight_succ (m k : Nat) : ((⟨m, false, false⟩ : ExtendedMantissa) >>> (k + 1)) =
    ⟨m / 2 ^ (k + 1), m / 2 ^ k % 2 != 0, m % 2 ^ k != 0⟩ := by
  induction k with
  | zero =>
    show ExtendedMantissa.mk (m / 2) (m % 2 != 0) false = _
    simp [Nat.mod_one]
  | succ k ih =>
    show ((⟨m, false, false⟩ : ExtendedMantissa) >>> (k + 1)).shiftRightOne = _
    rw [ih]
    unfold ExtendedMantissa.shiftRightOne
    dsimp only
    have hsticky : (m % 2 ^ (k + 1) != 0) = (m / 2 ^ k % 2 != 0 || m % 2 ^ k != 0) := by
      rw [Nat.mod_pow_succ]
      have hpos : 0 < 2 ^ k := Nat.two_pow_pos k
      rcases Nat.mod_two_eq_zero_or_one (m / 2 ^ k) with hbit | hbit <;> rw [hbit] <;> simp
    rw [hsticky, Nat.div_div_eq_div_mul, ← Nat.pow_succ]

/-- What is shifted out of a significand rounds it as a quotient. -/
theorem roundedMantissa_shiftRight (m k : Nat) :
    (((⟨m, false, false⟩ : ExtendedMantissa) >>> k).roundedMantissa : Int) = roundDiv m (2 ^ k) := by
  cases k with
  | zero =>
    show (m : Int) = roundDiv m 1
    simpa using (roundDiv_mul (m : Int) Nat.one_pos).symm
  | succ k =>
    rw [shiftRight_succ]
    have hpos : 0 < 2 ^ k := Nat.two_pow_pos k
    have hdiv : ((m : Int) / (2 ^ (k + 1) : Nat)) = (m / 2 ^ (k + 1) : Nat) := by exact_mod_cast rfl
    have hmod : ((m : Int) % (2 ^ (k + 1) : Nat)) = (m % 2 ^ k + 2 ^ k * (m / 2 ^ k % 2) : Nat) := by
      rw [← Nat.mod_pow_succ]
      exact_mod_cast rfl
    have htwo : 2 ^ (k + 1) = 2 * 2 ^ k := by rw [Nat.pow_succ, Nat.mul_comm]
    have hrest : m % 2 ^ k < 2 ^ k := Nat.mod_lt _ hpos
    have hbit : m / 2 ^ k % 2 = 0 ∨ m / 2 ^ k % 2 = 1 := Nat.mod_two_eq_zero_or_one _
    unfold roundDiv ExtendedMantissa.roundedMantissa
    dsimp only
    rw [hdiv, hmod, htwo]
    generalize m / (2 * 2 ^ k) = q
    generalize m / 2 ^ k % 2 = bit at hbit ⊢
    generalize m % 2 ^ k = r at hrest ⊢
    generalize 2 ^ k = d at hpos hrest ⊢
    rcases hbit with rfl | rfl
    · -- The first bit shifted out is not set, so less than a half is.
      rw [if_pos (by omega)]
      cases r != 0 <;> rfl
    · rw [if_neg (by omega)]
      by_cases hr : r = 0
      · subst hr
        rw [if_neg (by omega)]
        show ((q + q % 2 : Nat) : Int) = _
        split <;> omega
      · rw [if_pos (by omega), bne_iff_ne.mpr hr]
        rfl

/-! ## Rounding an unpacked number -/

theorem log2_mul_two_pow {m : Nat} (hm : m ≠ 0) (k : Nat) : (m * 2 ^ k).log2 = m.log2 + k := by
  have hpos : 0 < 2 ^ k := Nat.two_pow_pos k
  refine (Nat.log2_eq_iff (Nat.mul_ne_zero hm (Nat.ne_of_gt hpos))).mpr ⟨?_, ?_⟩
  · rw [Nat.pow_add]
    exact Nat.mul_le_mul_right _ (Nat.log2_self_le hm)
  · rw [Nat.add_right_comm, Nat.pow_add]
    exact Nat.mul_lt_mul_of_pos_right Nat.lt_log2_self hpos

theorem targetExponent_eq (t : Int) : Format.binary64.targetExponent t = max (t - 53) (-1074) := rfl

theorem shiftToTargetExponent_eq {m : Nat} {e : Int} {k : Nat}
    (h : (Format.binary64.targetExponent (totalExponent m e) - e).toNat = k) :
    shiftToTargetExponent Format.binary64 m e .exact = ((⟨m, false, false⟩ : ExtendedMantissa) >>> k, e + k) := by
  rw [← h]
  rfl

/-- The last stage of rounding: a significand that has become one bit too long loses a bit. -/
def trim (s : Sign) (r : Nat) (t : Int) : UnpackedFloat :=
  let (em, e) := shiftToTargetExponent Format.binary64 r t .exact
  if h : em.mantissa = 0 then .zero s else .finite s em.mantissa e (Nat.pos_of_ne_zero h)

theorem trim_eq {s : Sign} {r m : Nat} {t e : Int} {k : Nat} (hm : 0 < m)
    (hk : (Format.binary64.targetExponent (totalExponent r t) - t).toNat = k) (hmantissa : r / 2 ^ k = m)
    (he : t + k = e) : trim s r t = .finite s m e hm := by
  have hshift : ((⟨r, false, false⟩ : ExtendedMantissa) >>> k).mantissa = m := (shiftRight_mantissa _ k).trans hmantissa
  subst hshift he
  unfold trim
  rw [shiftToTargetExponent_eq hk]
  exact dif_neg (Nat.ne_of_gt hm)

theorem units_trim {s : Sign} {r : Nat} {t : Int} (hr : 0 < r) (hle : r ≤ 2 ^ 53) (ht : -1074 ≤ t)
    (hnormal : 2 ^ 52 ≤ r ∨ t = -1074) : Rounded (trim s r t) ∧ units (trim s r t) = s.apply (magnitude r t) := by
  rcases Nat.lt_or_eq_of_le hle with hlt | rfl
  · have hlog : r.log2 ≤ 52 := log2_le_of_lt hlt
    have hk : (Format.binary64.targetExponent (totalExponent r t) - t).toNat = 0 := by
      rw [targetExponent_eq]
      unfold totalExponent
      omega
    rw [trim_eq (e := t) hr hk (Nat.div_one r) (Int.add_zero t)]
    exact ⟨⟨hlt, ht, hnormal⟩, rfl⟩
  · have hk : (Format.binary64.targetExponent (totalExponent (2 ^ 53) t) - t).toNat = 1 := by
      rw [targetExponent_eq]
      unfold totalExponent
      rw [Nat.log2_two_pow]
      omega
    have hpos : 0 < 2 ^ 52 := Nat.two_pow_pos 52
    rw [trim_eq (e := t + 1) hpos hk rfl rfl]
    refine ⟨⟨by decide, by omega, .inl (Nat.le_refl _)⟩, ?_⟩
    show s.apply (magnitude (2 ^ 52) (t + (1 : Nat))) = _
    rw [magnitude_add 1 ht]
    rfl

theorem units_round (s : Sign) {m : Nat} {e : Int} (hm : 0 < m) (he : -1074 ≤ e) :
    Rounded (round Format.binary64 s m e) ∧
      units (round Format.binary64 s m e) = s.apply (significant (magnitude m e)) := by
  -- The number in the exponent that it is rounded to, or in its own if that one is less.
  generalize ht : Format.binary64.targetExponent (totalExponent m e) = t
  have htarget : t = max (m.log2 + 1 + e - 53) (-1074) := ht.symm
  generalize hj : (e - t).toNat = j
  generalize hk : (t - (e - j)).toNat = k
  generalize hc : (e - j + 1074).toNat = c
  have hlog := log2_mul_two_pow (Nat.ne_of_gt hm) j
  have hsame : Format.binary64.targetExponent (totalExponent (m * 2 ^ j) (e - j)) = t := by
    rw [targetExponent_eq, htarget]
    unfold totalExponent
    rw [hlog]
    omega
  have hmagnitude : magnitude m e = m * 2 ^ j * 2 ^ c := by
    unfold magnitude
    rw [Nat.mul_assoc, ← Nat.pow_add]
    congr 2
    omega
  have hdigits : (magnitude m e).log2 - 52 = k + c := by
    rw [hmagnitude, log2_mul_two_pow (Nat.mul_ne_zero (Nat.ne_of_gt hm) (Nat.ne_of_gt (Nat.two_pow_pos j))), hlog]
    omega
  -- Its significand there is the rounded quotient of its magnitude.
  have hround : roundDiv (magnitude m e) (2 ^ ((magnitude m e).log2 - 52)) = roundDiv (m * 2 ^ j : Nat) (2 ^ k) := by
    rw [hdigits, hmagnitude, Nat.pow_add, Int.natCast_mul]
    exact roundDiv_mul_mul _ _ (Nat.two_pow_pos c)
  have hrounded := roundedMantissa_shiftRight (m * 2 ^ j) k
  generalize hr : ((⟨m * 2 ^ j, false, false⟩ : ExtendedMantissa) >>> k).roundedMantissa = r at hrounded
  rw [← hround] at hrounded
  have hstages : round Format.binary64 s m e = trim s r t := by
    have hexponent : e - (j : Int) + k = t := by omega
    unfold UnpackedFloat.round
    rw [ht]
    unfold decreaseExponent
    dsimp only
    rw [hj, Nat.shiftLeft_eq]
    show trim s (shiftToTargetExponent Format.binary64 (m * 2 ^ j) (e - j) .exact).1.roundedMantissa
      (shiftToTargetExponent Format.binary64 (m * 2 ^ j) (e - j) .exact).2 = _
    rw [shiftToTargetExponent_eq (k := k) (by rw [hsame]; exact hk), hexponent, hr]
  have hvalue : significant (magnitude m e) = magnitude r t := by
    have hexponent : (t + 1074).toNat = k + c := by omega
    unfold significant
    rw [← hrounded, hdigits, ← Int.natCast_mul, ← hexponent]
    rfl
  have hpos := magnitude_pos hm e
  rw [hstages, hvalue]
  refine units_trim ?_ ?_ (by omega) ?_
  · have hone := one_le_roundDiv_log2 (Nat.ne_of_gt hpos)
    rw [← hrounded] at hone
    exact_mod_cast hone
  · have hle := roundDiv_log2_le (magnitude m e)
    rw [← hrounded] at hle
    exact_mod_cast hle
  · by_cases hlarge : 52 ≤ (magnitude m e).log2
    · have hle := le_roundDiv_log2 hlarge
      rw [← hrounded] at hle
      exact .inl (by exact_mod_cast hle)
    · exact .inr (by omega)

/-! ## Differences -/

theorem rounded_apply (s : Sign) (n : Nat) : rounded (s.apply n) = s.apply (significant n) := by
  cases s with
  | negative => exact (rounded_neg n).trans (congrArg Neg.neg (rounded_natCast n))
  | positive => exact rounded_natCast n

theorem Canonical.significant_magnitude {m : Nat} {e : Int} (h : Canonical m e) :
    significant (magnitude m e) = magnitude m e := by
  rcases h.normal with hnormal | hleast
  · have hlog : m.log2 = 52 := (Nat.log2_eq_iff (by omega)).mpr ⟨hnormal, h.lt⟩
    have hdigits : (magnitude m e).log2 - 52 = (e + 1074).toNat := by
      unfold magnitude
      rw [log2_mul_two_pow (by omega), hlog]
      omega
    have hexact : roundDiv (magnitude m e) (2 ^ (e + 1074).toNat) = m := by
      unfold magnitude
      rw [Int.natCast_mul]
      exact roundDiv_mul _ (Nat.two_pow_pos _)
    unfold significant
    rw [hdigits, hexact, ← Int.natCast_mul]
    rfl
  · refine significant_of_log2_le (log2_le_of_lt ?_)
    have hself : magnitude m (-1074) = m := Nat.mul_one m
    rw [hleast, hself]
    exact h.lt

theorem units_normalize (z : Int) {e : Int} (he : -1074 ≤ e) :
    Rounded (UnpackedFloat.normalize Format.binary64 z e .positive) ∧
      units (UnpackedFloat.normalize Format.binary64 z e .positive) =
        rounded (z * (2 ^ (e + 1074).toNat : Nat)) := by
  unfold UnpackedFloat.normalize
  split
  · next hlt =>
    have hneg := Int.compare_eq_lt.mp hlt
    obtain ⟨hrounded, hunits⟩ := units_round .negative (m := (-z).toNat) (by omega) he
    refine ⟨hrounded, hunits.trans ?_⟩
    have hz : z * (2 ^ (e + 1074).toNat : Nat) = -(magnitude (-z).toNat e : Int) := by
      unfold magnitude
      rw [Int.natCast_mul, Int.toNat_of_nonneg (by omega), Int.neg_mul, Int.neg_neg]
    rw [hz, rounded_neg, rounded_natCast]
    rfl
  · next heq =>
    rw [Int.compare_eq_eq.mp heq, Int.zero_mul]
    exact ⟨trivial, rfl⟩
  · next hgt =>
    have hpos := Int.compare_eq_gt.mp hgt
    obtain ⟨hrounded, hunits⟩ := units_round .positive (m := z.toNat) (by omega) he
    refine ⟨hrounded, hunits.trans ?_⟩
    have hz : z * (2 ^ (e + 1074).toNat : Nat) = magnitude z.toNat e := by
      unfold magnitude
      rw [Int.natCast_mul, Int.toNat_of_nonneg (by omega)]
    rw [hz, rounded_natCast]
    rfl

theorem units_unpacked_sub {u v : UnpackedFloat} (hu : Rounded u) (hv : Rounded v) (hfu : u.isFinite = true)
    (hfv : v.isFinite = true) : Rounded (UnpackedFloat.sub Format.binary64 u v) ∧
      units (UnpackedFloat.sub Format.binary64 u v) = rounded (units u - units v) := by
  cases u with
  | notANumber => cases hfu
  | infinity s => cases hfu
  | zero s =>
    cases v with
    | notANumber => cases hfv
    | infinity t => cases hfv
    | zero t =>
      have hzero : ∃ sign, UnpackedFloat.sub Format.binary64 (.zero s) (.zero t) = .zero sign := by
        cases s <;> cases t <;> exact ⟨_, rfl⟩
      obtain ⟨sign, hsub⟩ := hzero
      rw [hsub]
      refine ⟨trivial, ?_⟩
      show (0 : Int) = rounded (0 - 0)
      exact (Int.zero_mul _).symm
    | finite t n f hn =>
      refine ⟨hv, ?_⟩
      show (-t).apply (magnitude n f) = rounded (0 - t.apply (magnitude n f))
      rw [Int.zero_sub, rounded_neg, rounded_apply, Canonical.significant_magnitude hv]
      cases t
      · exact (Int.neg_neg _).symm
      · rfl
  | finite s m e hm =>
    cases v with
    | notANumber => cases hfv
    | infinity t => cases hfv
    | zero t =>
      refine ⟨hu, ?_⟩
      show s.apply (magnitude m e) = rounded (s.apply (magnitude m e) - 0)
      rw [Int.sub_zero, rounded_apply, Canonical.significant_magnitude hu]
    | finite t n f hn =>
      have hle := hu.le
      have hlf := hv.le
      have hscale : ∀ (sign : Sign) (r : Nat) (x : Int), min e f ≤ x →
          sign.apply ((r <<< (x - min e f).toNat : Nat) : Int) * (2 ^ (min e f + 1074).toNat : Nat) =
            sign.apply (magnitude r x) := by
        intro sign r x hx
        have hpow : r <<< (x - min e f).toNat * 2 ^ (min e f + 1074).toNat = magnitude r x := by
          rw [Nat.shiftLeft_eq, Nat.mul_assoc, ← Nat.pow_add]
          unfold magnitude
          congr 2
          omega
        cases sign <;> simp only [Sign.apply, Int.neg_mul, ← Int.natCast_mul, hpow]
      have hnormalize := units_normalize
        (s.apply ((m <<< (e - min e f).toNat : Nat) : Int) - t.apply ((n <<< (f - min e f).toNat : Nat) : Int))
        (e := min e f) (by omega)
      rw [Int.sub_mul, hscale s m e (Int.min_le_left e f), hscale t n f (Int.min_le_right e f)] at hnormalize
      exact hnormalize

/-! ## Doubles -/

theorem compare_neg_neg (a b : Int) : compare (-a) (-b) = (compare a b).swap := by
  rcases Int.lt_trichotomy a b with h | h | h
  · rw [Int.compare_eq_lt.mpr h, Int.compare_eq_gt.mpr (by omega)]
    rfl
  · rw [Int.compare_eq_eq.mpr h, Int.compare_eq_eq.mpr (by omega)]
    rfl
  · rw [Int.compare_eq_gt.mpr h, Int.compare_eq_lt.mpr (by omega)]
    rfl

/-- Numbers compare as their units do, if the finite ones stay finite when they are packed. -/
theorem compare_eq {u v : UnpackedFloat} (hu : Rounded u) (hv : Rounded v) (hfu : u.isFinite = true → fits u = true)
    (hfv : v.isFinite = true → fits v = true) : u.compare v = some (compare (units u) (units v)) := by
  have htop : (0 : Int) < top := by exact_mod_cast twoTo_pos 2098
  have hmagnitude : ∀ {s m e hm}, Rounded (.finite s m e hm) → ((UnpackedFloat.finite s m e hm).isFinite = true →
      fits (.finite s m e hm) = true) → (0 : Int) < magnitude m e ∧ (magnitude m e : Int) < top := by
    intro s m e hm hcanonical hfits
    refine ⟨by exact_mod_cast magnitude_pos hm e, ?_⟩
    exact_mod_cast Canonical.magnitude_lt_top hcanonical (of_decide_eq_true (hfits rfl))
  have hlt : ∀ {a b : Int}, a < b → some Ordering.lt = some (compare a b) := fun h =>
    congrArg some (Int.compare_eq_lt.mpr h).symm
  have heq : ∀ {a : Int}, some Ordering.eq = some (compare a a) := congrArg some (Int.compare_eq_eq.mpr rfl).symm
  have hgt : ∀ {a b : Int}, b < a → some Ordering.gt = some (compare a b) := fun h =>
    congrArg some (Int.compare_eq_gt.mpr h).symm
  cases u with
  | notANumber => exact hu.elim
  | infinity s =>
    cases v with
    | notANumber => exact hv.elim
    | infinity t =>
      cases s <;> cases t
      · exact heq
      · exact hlt (show -(top : Int) < top by omega)
      · exact hgt (show -(top : Int) < top by omega)
      · exact heq
    | zero t =>
      cases s
      · exact hlt (show -(top : Int) < 0 by omega)
      · exact hgt htop
    | finite t n f hn =>
      obtain ⟨hpos, hbound⟩ := hmagnitude hv hfv
      cases s <;> cases t
      · exact hlt (show -(top : Int) < -(magnitude n f : Int) by omega)
      · exact hlt (show -(top : Int) < (magnitude n f : Int) by omega)
      · exact hgt (show -(magnitude n f : Int) < top by omega)
      · exact hgt hbound
  | zero s =>
    cases v with
    | notANumber => exact hv.elim
    | infinity t =>
      cases t
      · exact hgt (show -(top : Int) < 0 by omega)
      · exact hlt htop
    | zero t => exact heq
    | finite t n f hn =>
      obtain ⟨hpos, -⟩ := hmagnitude hv hfv
      cases t
      · exact hgt (show -(magnitude n f : Int) < 0 by omega)
      · exact hlt hpos
  | finite s m e hm =>
    obtain ⟨hpos, hbound⟩ := hmagnitude hu hfu
    cases v with
    | notANumber => exact hv.elim
    | infinity t =>
      cases s <;> cases t
      · exact hgt (show -(top : Int) < -(magnitude m e : Int) by omega)
      · exact hlt (show -(magnitude m e : Int) < top by omega)
      · exact hgt (show -(top : Int) < (magnitude m e : Int) by omega)
      · exact hlt hbound
    | zero t =>
      cases s
      · exact hlt (show -(magnitude m e : Int) < 0 by omega)
      · exact hgt hpos
    | finite t n f hn =>
      obtain ⟨hpos', -⟩ := hmagnitude hv hfv
      have hcompare := Canonical.compare_magnitude hu hv
      cases s <;> cases t
      · exact congrArg some ((congrArg Ordering.swap hcompare).trans (compare_neg_neg _ _).symm)
      · exact hlt (show -(magnitude m e : Int) < (magnitude n f : Int) by omega)
      · exact hgt (show -(magnitude n f : Int) < (magnitude m e : Int) by omega)
      · exact congrArg some hcompare

/-- A double in units of 2^-1074. -/
def unitsOf (x : Float) : Int := units x.toModel.unpack

theorem ne_notANumber_of_isFinite {x : Float} (h : x.isFinite = true) : x.toModel.unpack ≠ .notANumber := by
  intro heq
  have hfinite : x.toModel.unpack.isFinite = true := h
  rw [heq] at hfinite
  cases hfinite

theorem ne_notANumber_of_isNaN {x : Float} (h : x.isNaN = false) : x.toModel.unpack ≠ .notANumber := by
  intro heq
  have hnumber : x.toModel.unpack.isNaN = false := h
  rw [heq] at hnumber
  cases hnumber

/-- No number is less than NaN. -/
theorem ne_notANumber_of_lt {x y : Float} (h : x < y) : y.toModel.unpack ≠ .notANumber := by
  intro heq
  have hlt : x.toModel.unpack.lt y.toModel.unpack = true := of_decide_eq_true h
  rw [heq] at hlt
  cases hx : x.toModel.unpack <;> rw [hx] at hlt <;> cases hlt

section Doubles

variable {x y : Float}

theorem compare_unitsOf (hx : x.toModel.unpack ≠ .notANumber) (hy : y.toModel.unpack ≠ .notANumber) :
    x.toModel.unpack.compare y.toModel.unpack = some (compare (unitsOf x) (unitsOf y)) := by
  have hfits : ∀ z : Float, z.toModel.unpack.isFinite = true → fits z.toModel.unpack = true := fun z h =>
    (fits_unpack _).trans ((isFinite_unpack _).symm.trans h)
  exact compare_eq (rounded_unpack hx) (rounded_unpack hy) (hfits x) (hfits y)

theorem lt_iff_unitsOf (hx : x.toModel.unpack ≠ .notANumber) (hy : y.toModel.unpack ≠ .notANumber) :
    x < y ↔ unitsOf x < unitsOf y := by
  have hlt : x < y ↔ x.toModel.unpack.lt y.toModel.unpack = true := by
    show decide (x.toModel < y.toModel) = true ↔ _
    exact decide_eq_true_iff
  unfold UnpackedFloat.lt at hlt
  rw [hlt, compare_unitsOf hx hy, ← Int.compare_eq_lt]
  cases compare (unitsOf x) (unitsOf y) <;> decide

theorem le_iff_unitsOf (hx : x.toModel.unpack ≠ .notANumber) (hy : y.toModel.unpack ≠ .notANumber) :
    x ≤ y ↔ unitsOf x ≤ unitsOf y := by
  have hle : x ≤ y ↔ x.toModel.unpack.le y.toModel.unpack = true := by
    show decide (x.toModel ≤ y.toModel) = true ↔ _
    exact decide_eq_true_iff
  unfold UnpackedFloat.le at hle
  rw [hle, compare_unitsOf hx hy, ← Int.not_lt, ← Int.compare_eq_gt]
  cases compare (unitsOf x) (unitsOf y) <;> decide

/-- The difference of two finite doubles is a number, with the rounded difference of their units. -/
theorem unitsOf_sub (hx : x.isFinite = true) (hy : y.isFinite = true) :
    (x - y).toModel.unpack ≠ .notANumber ∧ unitsOf (x - y) = cut (rounded (unitsOf x - unitsOf y)) := by
  obtain ⟨hrounded, hunits⟩ := units_unpacked_sub (rounded_unpack (ne_notANumber_of_isFinite hx))
    (rounded_unpack (ne_notANumber_of_isFinite hy)) hx hy
  obtain ⟨hnumber, hpack⟩ := units_unpack_pack hrounded
  exact ⟨hnumber, hpack.trans (congrArg cut hunits)⟩

/-- A difference that is not less than a number stays so when the first double grows and the second one shrinks. -/
theorem le_sub_of_not_sub_lt {x' y' r : Float} (hx : x.isFinite = true) (hy : y.isFinite = true)
    (hx' : x'.isFinite = true) (hy' : y'.isFinite = true) (hr : r.isNaN = false) (hxx : x ≤ x') (hyy : y' ≤ y)
    (h : ¬ x - y < r) : r ≤ x' - y' := by
  obtain ⟨hnumber, hunits⟩ := unitsOf_sub hx hy
  obtain ⟨hnumber', hunits'⟩ := unitsOf_sub hx' hy'
  have hr' := ne_notANumber_of_isNaN hr
  rw [le_iff_unitsOf (ne_notANumber_of_isFinite hx) (ne_notANumber_of_isFinite hx')] at hxx
  rw [le_iff_unitsOf (ne_notANumber_of_isFinite hy') (ne_notANumber_of_isFinite hy)] at hyy
  rw [lt_iff_unitsOf hnumber hr', hunits, Int.not_lt] at h
  rw [le_iff_unitsOf hr' hnumber', hunits']
  exact Int.le_trans h (cut_mono (rounded_mono (by omega)))

theorem le_trans_of_isFinite {z : Float} (hx : x.isFinite = true) (hy : y.isFinite = true) (hz : z.isFinite = true)
    (hxy : x ≤ y) (hyz : y ≤ z) : x ≤ z := by
  rw [le_iff_unitsOf (ne_notANumber_of_isFinite hx) (ne_notANumber_of_isFinite hy)] at hxy
  rw [le_iff_unitsOf (ne_notANumber_of_isFinite hy) (ne_notANumber_of_isFinite hz)] at hyz
  rw [le_iff_unitsOf (ne_notANumber_of_isFinite hx) (ne_notANumber_of_isFinite hz)]
  exact Int.le_trans hxy hyz

theorem le_refl_of_isFinite (hx : x.isFinite = true) : x ≤ x :=
  (le_iff_unitsOf (ne_notANumber_of_isFinite hx) (ne_notANumber_of_isFinite hx)).mpr (Int.le_refl _)

/-- A finite double less itself is less than any positive number. -/
theorem sub_self_lt {r : Float} (hx : x.isFinite = true) (hpos : 0 < r) : x - x < r := by
  obtain ⟨hnumber, hunits⟩ := unitsOf_sub hx hx
  have hzero : (0 : Float).toModel.unpack = .zero .positive := by rfl
  have hzeroUnits : unitsOf 0 = 0 := congrArg units hzero
  have hr' := ne_notANumber_of_lt hpos
  rw [lt_iff_unitsOf (by rw [hzero]; nofun) hr', hzeroUnits] at hpos
  rw [lt_iff_unitsOf hnumber hr', hunits, Int.sub_self]
  have hrounded : rounded 0 = 0 := Int.zero_mul _
  have htop : (0 : Int) ≤ top := Int.natCast_nonneg _
  rw [hrounded]
  unfold cut
  omega

end Doubles

end Binary64

end Backpressure.Number
