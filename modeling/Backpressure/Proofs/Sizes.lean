import Backpressure.Proofs.SizeTexts

/-!
# Data sizes in bytes

* `isFinite_nearest_mul`, `exact_nearest_mul` : a rounded amount times a power of 1024 is not rounded again;
* `floor_exact_nearest` : the integer part that is kept where the digits have fewer than 53 bits in units of bytes;
* `bytesOf_names` : the bytes of an amount of a unit, `parse_toString`, `parse_bytesText_eq_iff` : those of a natural number
  without its unit and with it;
* `sizes_are_rounded_products` : what a data size stands for, and where that is the product itself.
-/

namespace Backpressure.Number.Binary64

/-! ## Amounts of units -/

theorem ofInt_eq (n : Int) : (Arithmetic.ofInt n : Float) = nearest n := by
  show nearest (mkRat (if (1 : Int) < 0 then -n else n) 1) = nearest n
  rw [if_neg (by decide), Rat.mkRat_one]

theorem isNaN_eq_false {x : Float} (h : x.toModel.unpack ≠ .notANumber) : x.isNaN = false := by
  show x.toModel.unpack.isNaN = false
  cases hx : x.toModel.unpack with
  | notANumber => exact absurd hx h
  | infinity | zero | finite => rfl

theorem pow_1024 (k : Nat) : (1024 : Rat) ^ k = 2 ^ (10 * k) := by
  rw [pow_mul]
  norm_num

theorem cut_eq_self {z : Int} (hz : 0 ≤ z) (h : z ≤ top) : cut z = z := by
  unfold cut
  omega

/-- The double of a unit of size. -/
theorem ofInt_unit {k : Nat} (hk : k < 6) : (Arithmetic.ofInt ((1024 ^ k : Nat) : Int) : Float).isFinite = true ∧
    unitsOf (Arithmetic.ofInt ((1024 ^ k : Nat) : Int) : Float) = 2 ^ (10 * k + 1074) := by
  have hlog : (1024 ^ k : Nat).log2 < 53 + 970 := by
    have hpow : (1024 : Nat) ^ k ≠ 0 := by positivity
    rw [Nat.log2_lt hpow]
    calc (1024 : Nat) ^ k = 2 ^ (10 * k) := by rw [Nat.pow_mul]
      _ < 2 ^ (53 + 970) := Nat.pow_lt_pow_right (by decide) (by omega)
  have hunits := (unitsOf_nearest ((1024 ^ k : Nat) : Int)).2
  rw [Int.cast_natCast, Nat.cast_pow, Nat.cast_ofNat, pow_1024, ← pow_add, settled_of_nonneg (by positivity),
    settle_two_pow] at hunits
  refine ⟨(isFinite_ofInt _).mpr (lt_overflow_of_log2 hlog), ?_⟩
  rw [ofInt_eq, Int.cast_natCast, Nat.cast_pow, Nat.cast_ofNat, pow_1024, hunits]
  have htop : ((2 ^ (10 * k + 1074) : Nat) : Int) ≤ top := Int.ofNat_le.mpr (two_pow_le_top (by omega))
  rw [Nat.cast_pow, Nat.cast_ofNat] at htop
  exact cut_eq_self (by positivity) htop

section Products

variable {q : Rat} {k : Nat}

/-- The product of a rounded amount and a unit is not rounded again. -/
theorem unitsOf_nearest_mul (hq : 0 ≤ q) (h : (nearest q).isFinite = true) (hk : k < 6) :
    (nearest q * Arithmetic.ofInt ((1024 ^ k : Nat) : Int)).toModel.unpack ≠ .notANumber ∧
      unitsOf (nearest q * Arithmetic.ofInt ((1024 ^ k : Nat) : Int)) =
        cut (settle (q * 2 ^ 1074) * 2 ^ (10 * k)) := by
  obtain ⟨hfinite, hunit⟩ := ofInt_unit hk
  obtain ⟨hnumber, hproduct⟩ := unitsOf_mul h hfinite
  refine ⟨hnumber, ?_⟩
  have hamount := exact_nearest_of_nonneg hq h
  rw [exact_mul_units h] at hamount
  have hnonneg := settle_nonneg (show 0 ≤ q * 2 ^ 1074 by positivity)
  rw [hproduct, hunit, Int.cast_injective hamount]
  have hquotient : ((settle (q * 2 ^ 1074) * 2 ^ (10 * k + 1074) : Int) : Rat) / 2 ^ 1074 =
      settle (q * 2 ^ 1074) * 2 ^ (10 * k) := by
    rw [Int.cast_mul, Int.cast_pow, Int.cast_ofNat, pow_add, ← mul_assoc, mul_div_cancel_right₀ _ (by positivity)]
  have hpos : (0 : Rat) ≤ settle (q * 2 ^ 1074) := by exact_mod_cast hnonneg
  rw [hquotient, settled_of_nonneg (by positivity), settle_settle_mul_two_pow (by positivity)]

/-- The product of an amount and a unit is finite just below `overflow`, though the amount is rounded first. -/
theorem settle_mul_lt_top_iff (hk : k < 6) :
    settle (q * 2 ^ 1074) * 2 ^ (10 * k) < top ↔ q * 1024 ^ k < overflow := by
  have hpos : (0 : Rat) < 2 ^ 1074 := by positivity
  have hunits : q * 1024 ^ k < overflow ↔ settle (q * 2 ^ 1074 * 2 ^ (10 * k)) < top := by
    have hlimit := top_le_settle_iff (q * 1024 ^ k * 2 ^ 1074)
    rw [mul_le_mul_iff_left₀ hpos, ← not_lt, ← not_lt, not_iff_not] at hlimit
    rw [← hlimit, ← pow_1024, mul_right_comm]
  rw [hunits]
  generalize q * 2 ^ 1074 = x
  rcases le_or_gt ((2 : Rat) ^ 52) x with hx | hx
  · rw [settle_mul_two_pow hx]
  · -- A number so small is far from `overflow` after the multiplication too.
    have hsmall : ∀ j, settle (x * 2 ^ j) ≤ 2 ^ (52 + j) := by
      intro j
      rw [← settle_two_pow, pow_add]
      exact settle_mono (mul_le_mul_of_nonneg_right hx.le (by positivity))
    have hlt : (2 ^ (52 + 10 * k) : Int) < top := by
      have hnat : 2 ^ (52 + 10 * k) < top :=
        (Nat.pow_lt_pow_right (by decide) (show 52 + 10 * k < 200 by omega)).trans_le (two_pow_le_top (by decide))
      exact_mod_cast hnat
    have hamount := hsmall 0
    rw [pow_zero, mul_one] at hamount
    refine iff_of_true (lt_of_le_of_lt ?_ hlt) ((hsmall _).trans_lt hlt)
    rw [pow_add]
    exact Int.mul_le_mul_of_nonneg_right hamount (by positivity)

theorem isFinite_nearest_mul (hq : 0 ≤ q) (h : (nearest q).isFinite = true) (hk : k < 6) :
    (nearest q * Arithmetic.ofInt ((1024 ^ k : Nat) : Int)).isFinite = true ↔ q * 1024 ^ k < overflow := by
  obtain ⟨hnumber, hunits⟩ := unitsOf_nearest_mul hq h hk
  have hnonneg := settle_nonneg (show 0 ≤ q * 2 ^ 1074 by positivity)
  have hproduct : 0 ≤ settle (q * 2 ^ 1074) * 2 ^ (10 * k) := by positivity
  rw [isFinite_iff hnumber, hunits, ← settle_mul_lt_top_iff hk]
  unfold cut
  omega

theorem exact_nearest_mul (hq : 0 ≤ q) (hk : k < 6) (h : q * 1024 ^ k < overflow) :
    exact (nearest q * Arithmetic.ofInt ((1024 ^ k : Nat) : Int)) = exact (nearest q) * 1024 ^ k := by
  have hamount : (nearest q).isFinite = true := by
    rw [isFinite_nearest_iff hq]
    exact (le_mul_of_one_le_right hq (one_le_pow₀ (by norm_num))).trans_lt h
  have hpos : (0 : Rat) < 2 ^ 1074 := by positivity
  have hproduct := exact_mul_units ((isFinite_nearest_mul hq hamount hk).mpr h)
  have hnonneg := settle_nonneg (show 0 ≤ q * 2 ^ 1074 by positivity)
  rw [(unitsOf_nearest_mul hq hamount hk).2,
    cut_eq_self (by positivity) ((settle_mul_lt_top_iff hk).mpr h).le] at hproduct
  have hexact := exact_nearest_of_nonneg hq hamount
  refine mul_right_cancel₀ hpos.ne' ?_
  rw [hproduct, mul_right_comm, hexact, Int.cast_mul, Int.cast_pow, Int.cast_ofNat, ← pow_1024]

theorem truncate_of_nonneg (h : 0 ≤ q) : truncate q = ⌊q⌋ := by
  rw [Rat.floor_def', truncate, Int.tdiv_eq_ediv_of_nonneg (Rat.num_nonneg.mpr h)]

/-- The bytes of an amount of a unit: the rounded amount is multiplied exactly, unless the product is too large. -/
theorem truncateToInt_nearest_mul (hq : 0 ≤ q) (hk : k < 6) :
    truncateToInt (nearest q * Arithmetic.ofInt ((1024 ^ k : Nat) : Int)) =
      if overflow ≤ q * 1024 ^ k then .error .infinityToInteger else .ok ⌊exact (nearest q) * 1024 ^ k⌋ := by
  unfold truncateToInt
  by_cases hamount : (nearest q).isFinite = true
  · rw [isNaN_eq_false (unitsOf_nearest_mul hq hamount hk).1, if_neg Bool.false_ne_true]
    by_cases h : q * 1024 ^ k < overflow
    · rw [if_pos ((isFinite_nearest_mul hq hamount hk).mpr h), if_neg (not_le.mpr h), exact_nearest_mul hq hk h,
        truncate_of_nonneg (mul_nonneg (exact_nearest_nonneg hq) (by positivity))]
    · rw [if_neg fun hfinite => h ((isFinite_nearest_mul hq hamount hk).mp hfinite), if_pos (not_lt.mp h)]
  · have hlarge : overflow ≤ q := not_lt.mp fun hlt => hamount ((isFinite_nearest_iff hq).mpr hlt)
    have hinfinity : ∀ j : Fin 6, (infinity * Arithmetic.ofInt ((1024 ^ j.val : Nat) : Int)).isNaN = false ∧
        (infinity * Arithmetic.ofInt ((1024 ^ j.val : Nat) : Int)).isFinite = false := by decide +kernel
    obtain ⟨hnumber, hinfinite⟩ := hinfinity ⟨k, hk⟩
    rw [nearest_eq_infinity hlarge, hnumber, hinfinite, if_neg Bool.false_ne_true, if_neg Bool.false_ne_true,
      if_pos (hlarge.trans (le_mul_of_one_le_right hq (one_le_pow₀ (by norm_num))))]

end Products

/-! ## Where rounding does not show -/

section Floors

variable {m f k : Nat}

/-- The rounded amount is not below an integer that the product reaches. -/
theorem le_exact_nearest_mul {q : Rat} {n : Nat} (hq : 0 ≤ q) (hk : k < 6) (hn : n < 2 ^ 53) (hle : n ≤ q * 1024 ^ k)
    (h : (nearest q).isFinite = true) : n ≤ exact (nearest q) * 1024 ^ k := by
  have hsplit : (2 : Rat) ^ 1074 = 1024 ^ k * 2 ^ (1074 - 10 * k) := by
    rw [pow_1024, ← pow_add]
    congr 1
    omega
  have hpos : (0 : Rat) < 2 ^ (1074 - 10 * k) := by positivity
  have hunits : (n : Rat) * 2 ^ (1074 - 10 * k) ≤ q * 2 ^ 1074 := by
    rw [hsplit, ← mul_assoc]
    exact mul_le_mul_of_nonneg_right hle hpos.le
  have hsettle := settle_mono hunits
  rw [settle_of_lt hn] at hsettle
  have hexact := exact_nearest_of_nonneg hq h
  have hcast : (n : Rat) * 2 ^ (1074 - 10 * k) ≤ settle (q * 2 ^ 1074) := by
    have := Int.cast_le (R := Rat).mpr hsettle
    rwa [Int.cast_mul, Int.cast_natCast, Int.cast_pow, Int.cast_ofNat] at this
  rw [← hexact, hsplit, ← mul_assoc] at hcast
  exact le_of_mul_le_mul_right hcast hpos

/-- The rounded amount stays below an integer that the product does not reach: by less than one unit of the last digit
it is off, and by at least one the product falls short. -/
theorem exact_nearest_mul_lt {n : Nat} (hk : k < 6) (hm : m * 1024 ^ k < 2 ^ 53)
    (hlt : (m : Rat) / 10 ^ f * 1024 ^ k < n + 1) (h : (nearest ((m : Rat) / 10 ^ f)).isFinite = true) :
    exact (nearest ((m : Rat) / 10 ^ f)) * 1024 ^ k < n + 1 := by
  have hten : (0 : Rat) < 10 ^ f := by positivity
  have hexact := exact_nearest_of_nonneg (by positivity) h
  have hpos : (0 : Rat) < 2 ^ 1074 := by positivity
  generalize hX : (m : Rat) / 10 ^ f * 2 ^ 1074 = X at hexact
  by_cases hscale : scale X = 0
  · have hle := settle_le X
    rw [hscale, add_zero] at hle
    have hcast : (settle X : Rat) ≤ 2 ^ 53 := by exact_mod_cast hle
    have hunit : (1024 : Rat) ^ k ≤ 2 ^ 60 := by
      rw [pow_1024]
      exact pow_le_pow_right₀ one_le_two (by omega)
    refine lt_of_mul_lt_mul_right (a := 2 ^ 1074) ?_ hpos.le
    calc exact (nearest ((m : Rat) / 10 ^ f)) * 1024 ^ k * 2 ^ 1074 = settle X * 1024 ^ k := by
          rw [mul_right_comm, hexact]
      _ ≤ 2 ^ 53 * 2 ^ 60 := mul_le_mul hcast hunit (by positivity) (by positivity)
      _ = 2 ^ 113 := (pow_add _ _ _).symm
      _ < 2 ^ 1074 := pow_lt_pow_right₀ one_lt_two (by omega)
      _ ≤ (n + 1) * 2 ^ 1074 := le_mul_of_one_le_left hpos.le (by linarith [Nat.cast_nonneg (α := Rat) n])
  · have herror := (abs_le.mp (settle_relative_error hscale)).2
    rw [← hexact, ← hX, mul_div_right_comm, ← sub_mul, mul_le_mul_iff_left₀ hpos] at herror
    have hshort : (m : Rat) * 1024 ^ k + 1 ≤ (n + 1) * 10 ^ f := by
      rw [div_mul_eq_mul_div, div_lt_iff₀ hten] at hlt
      exact_mod_cast hlt
    have hdigits : (m : Rat) * 1024 ^ k < 2 ^ 53 := by exact_mod_cast hm
    calc exact (nearest ((m : Rat) / 10 ^ f)) * 1024 ^ k
        ≤ ((m : Rat) / 10 ^ f + m / 10 ^ f / 2 ^ 53) * 1024 ^ k :=
          mul_le_mul_of_nonneg_right (by linarith) (by positivity)
      _ = (m * 1024 ^ k + m * 1024 ^ k / 2 ^ 53) / 10 ^ f := by ring
      _ < (m * 1024 ^ k + 1) / 10 ^ f := by
          refine div_lt_div_of_pos_right (add_lt_add_right ?_ _) hten
          rwa [div_lt_one (by positivity)]
      _ ≤ n + 1 := (div_le_iff₀ hten).mpr hshort

/-- The integer part of a product of a decimal fraction and a unit is kept as long as the digits have fewer than 53
bits in units of bytes. -/
theorem floor_exact_nearest (f : Nat) (hk : k < 6) (h : m * 1024 ^ k < 2 ^ 53) :
    ⌊exact (nearest ((m : Rat) / 10 ^ f)) * 1024 ^ k⌋ = ⌊(m : Rat) / 10 ^ f * 1024 ^ k⌋ := by
  have hq : (0 : Rat) ≤ m / 10 ^ f := by positivity
  have hbound : (m : Rat) / 10 ^ f * 1024 ^ k < 2 ^ 53 :=
    calc (m : Rat) / 10 ^ f * 1024 ^ k ≤ m * 1024 ^ k :=
          mul_le_mul_of_nonneg_right (div_le_self (by positivity) (one_le_pow₀ (by norm_num))) (by positivity)
      _ < 2 ^ 53 := by exact_mod_cast h
  have hfinite : (nearest ((m : Rat) / 10 ^ f)).isFinite = true := by
    have hlimit : (2 : Rat) ^ 53 < overflow := by exact_mod_cast lt_overflow_of_log2 (n := 2 ^ 53) (by decide)
    rw [isFinite_nearest_iff hq]
    exact (le_mul_of_one_le_right hq (one_le_pow₀ (by norm_num))).trans_lt (hbound.trans hlimit)
  have hfloor : 0 ≤ ⌊(m : Rat) / 10 ^ f * 1024 ^ k⌋ := Int.floor_nonneg.mpr (by positivity)
  obtain ⟨n, hn⟩ := Int.eq_ofNat_of_zero_le hfloor
  obtain ⟨hle, hlt⟩ := Int.floor_eq_iff.mp hn
  rw [Int.cast_natCast] at hle hlt
  rw [hn, Int.floor_eq_iff, Int.cast_natCast]
  refine ⟨le_exact_nearest_mul hq hk ?_ hle hfinite, exact_nearest_mul_lt hk h hlt hfinite⟩
  exact_mod_cast hle.trans_lt hbound

end Floors

end Backpressure.Number.Binary64

namespace Backpressure.DataSize
open Number Binary64 Text

/-! ## What data sizes stand for -/

variable {unit : List Char} {k : Nat}

theorem bytesOf_names (d : Numeral) (h : Names unit k) : bytesOf d.chars unit =
    if overflow ≤ d.value * 1024 ^ k then .error .infinityToInteger
    else .ok ⌊exact (nearest d.value) * 1024 ^ k⌋ := by
  unfold bytesOf
  rw [d.readReal_chars, unitBytes_of_names h]
  exact truncateToInt_nearest_mul d.value_nonneg h.lt

theorem bytesOf_kelvin (d : Numeral) (h : IsKelvin unit) :
    bytesOf d.chars unit = .error (.unknownUnit (String.ofList [kelvinSign, 'B'])) := by
  unfold bytesOf
  rw [d.readReal_chars, unitBytes_of_kelvin h]
  rfl

/-- A text with a unit stands for the rounded amount times the unit, unless that is too large. -/
theorem SizeText.parse_text (t : SizeText) (h : Names t.unit k) : parse (.text t.text) =
    if overflow ≤ t.amount.value * 1024 ^ k then .error .infinityToInteger
    else .ok (some (.amount ⌊exact (nearest t.amount.value) * 1024 ^ k⌋)) := by
  show parseText t.text = _
  rw [t.parseText_text, bytesOf_names t.amount h]
  split <;> rfl

theorem SizeText.floor_eq (t : SizeText) (h : Names t.unit k)
    (hexact : t.amount.digits * 1024 ^ k < 2 ^ 53 ∨ exact (nearest t.amount.value) = t.amount.value) :
    ⌊exact (nearest t.amount.value) * 1024 ^ k⌋ = ⌊t.amount.value * 1024 ^ k⌋ := by
  rcases hexact with hdigits | hexact
  · exact floor_exact_nearest _ h.lt hdigits
  · rw [hexact]

/-- The text of a natural number of bytes. -/
def bytesText (n : Nat) : SizeText where
  before := []
  amount := .ofDigits (Nat.toDigits 10 n) Nat.toDigits_ne_nil fun _ hc =>
    isDecimalDigit_of_isDigit (isDigit_of_mem_toDigits hc)
  gap := []
  unit := ['B']
  after := []
  before_blank := nofun
  gap_blank := nofun
  after_blank := nofun
  spelled := .inl ⟨0, rfl⟩

theorem text_bytesText (n : Nat) : (bytesText n).text = toString n ++ "B" := by
  rw [Nat.toString_eq_ofList_toDigits]
  refine String.toList_inj.mp ?_
  rw [String.toList_append, String.toList_ofList]
  unfold SizeText.text
  rw [String.toList_ofList]
  show Nat.toDigits 10 n ++ [] ++ ['B'] ++ [] = _
  simp

theorem value_bytesText (n : Nat) : (bytesText n).amount.value = n := by
  refine (Numeral.value_ofDigits _ _).trans ?_
  rw [numberOf_toDigits]

theorem parse_bytesText (n : Nat) : parse (.text (toString n ++ "B")) =
    if overflow ≤ n then .error .infinityToInteger else .ok (some (.amount ⌊exact (nearest n)⌋)) := by
  have hparse := (bytesText n).parse_text (k := 0) rfl
  rw [value_bytesText, pow_zero, mul_one, mul_one, text_bytesText] at hparse
  rw [hparse]
  congr 1
  exact propext Nat.cast_le

/-- The double nearest to a natural number is an integer, if it is finite. -/
theorem exists_exact_nearest_natCast (n : Nat) : ∃ z : Int, exact (nearest n) = z := by
  by_cases hfinite : (nearest (n : Rat)).isFinite = true
  · have hpos : (0 : Rat) < 2 ^ 1074 := pow_pos two_pos 1074
    have hexact := exact_nearest_of_nonneg (Nat.cast_nonneg n) hfinite
    rcases lt_or_ge n (2 ^ 53) with hn | hn
    · rw [settle_of_lt hn, Int.cast_mul, Int.cast_pow, Int.cast_ofNat] at hexact
      exact ⟨n, mul_right_cancel₀ hpos.ne' hexact⟩
    · have hlow : (2 : Rat) ^ 52 ≤ n := by exact_mod_cast (Nat.pow_le_pow_right two_pos (by decide)).trans hn
      rw [settle_mul_two_pow hlow, Int.cast_mul, Int.cast_pow, Int.cast_ofNat] at hexact
      exact ⟨settle n, mul_right_cancel₀ hpos.ne' hexact⟩
  · exact ⟨0, (if_neg hfinite).trans Int.cast_zero.symm⟩

/-- A natural number of bytes stands for itself just where it is a double. -/
theorem parse_bytesText_eq_iff (n : Nat) :
    parse (.text (toString n ++ "B")) = .ok (some (.amount n)) ↔ exact (nearest n) = n := by
  rw [parse_bytesText]
  by_cases hlarge : overflow ≤ n
  · have hfinite : ¬ (nearest (n : Rat)).isFinite = true := by
      rw [isFinite_nearest_iff (Nat.cast_nonneg n), not_lt]
      exact_mod_cast hlarge
    have hzero : exact (nearest n) = 0 := if_neg hfinite
    have hpos : 0 < overflow := (Nat.two_pow_pos 53).trans (lt_overflow_of_log2 (by decide))
    rw [if_pos hlarge, hzero]
    refine iff_of_false nofun fun heq => ?_
    have hn : n = 0 := by exact_mod_cast heq.symm
    omega
  · rw [if_neg hlarge]
    obtain ⟨z, hz⟩ := exists_exact_nearest_natCast n
    rw [hz, Int.floor_intCast, Except.ok.injEq, Option.some.injEq, Limit.amount.injEq]
    exact_mod_cast Iff.rfl

/-- A natural number that is written stands for itself. -/
theorem parse_toString {n : Nat} (h : (toString n).length ≤ maxIntegerDigits) :
    parse (.text (toString n)) = parse (.whole n) := by
  have hblank : ∀ c ∈ ([] : List Char), isBlank c = true := List.forall_mem_nil _
  have hdigits : ∀ c ∈ Nat.toDigits 10 n, isDecimalDigit c = true := fun _ hc =>
    isDecimalDigit_of_isDigit (isDigit_of_mem_toDigits hc)
  rw [Nat.toString_eq_ofList_toDigits] at h ⊢
  rw [String.length_ofList] at h
  have hparse := parseText_digits hblank hblank Nat.toDigits_ne_nil hdigits
  rw [List.nil_append, List.append_nil, if_neg (not_lt.mpr h), numberOf_toDigits] at hparse
  exact hparse

/-- Data sizes are products of a unit and an amount that is rounded to a double before. The bytes are the integer part
of that product, or the size is refused where the exact one is 2^1024 - 2^970 or more. They are those of the exact
product if the digits of the amount have fewer than 53 bits in units of bytes, or the amount is a double. Digits alone
stand for the number that they write, as that number alone does; with the unit `B` they do just where it is a double. -/
theorem sizes_are_rounded_products (t : SizeText) (h : Names t.unit k) (n : Nat) :
    (overflow ≤ t.amount.value * 1024 ^ k → parse (.text t.text) = .error .infinityToInteger) ∧
    (t.amount.value * 1024 ^ k < overflow →
      parse (.text t.text) = .ok (some (.amount ⌊exact (nearest t.amount.value) * 1024 ^ k⌋)) ∧
      (t.amount.digits * 1024 ^ k < 2 ^ 53 ∨ exact (nearest t.amount.value) = t.amount.value →
        parse (.text t.text) = .ok (some (.amount ⌊t.amount.value * 1024 ^ k⌋)))) ∧
    (∀ before cs after : List Char, (∀ c ∈ before, isBlank c = true) → (∀ c ∈ after, isBlank c = true) → cs ≠ [] →
      (∀ c ∈ cs, isDecimalDigit c = true) → cs.length ≤ maxIntegerDigits →
        parse (.text (String.ofList (before ++ cs ++ after))) = .ok (some (.amount (numberOf cs : Nat)))) ∧
    ((toString n).length ≤ maxIntegerDigits → parse (.text (toString n)) = parse (.whole n)) ∧
    (parse (.text (toString n ++ "B")) = parse (.whole n) ↔ exact (nearest n) = n) := by
  refine ⟨fun hlarge => ?_, fun hsmall => ?_, ?_, parse_toString, parse_bytesText_eq_iff n⟩
  · rw [t.parse_text h, if_pos hlarge]
  · have hparse := t.parse_text h
    rw [if_neg (not_le.mpr hsmall)] at hparse
    exact ⟨hparse, fun hexact => by rw [hparse, t.floor_eq h hexact]⟩
  · intro before cs after hbefore hafter hne hdigits hlength
    exact (parseText_digits hbefore hafter hne hdigits).trans (if_neg (not_lt.mpr hlength))

/-- Bytes that take 54 bits lose the last of them when they are written with their unit. -/
theorem unit_costs_a_byte : parse (.text "9007199254740993B") = .ok (some (.amount 9007199254740992)) ∧
    parse (.text "9007199254740993") = .ok (some (.amount 9007199254740993)) := by
  have hunit : Names (bytesText 9007199254740993).unit 0 := rfl
  obtain ⟨-, hbelow, -, hplain, -⟩ := sizes_are_rounded_products (bytesText 9007199254740993) hunit 9007199254740993
  have hrounded : (⌊exact (nearest (9007199254740993 : Nat)) * 1024 ^ 0⌋ : Int) = 9007199254740992 := by decide +kernel
  rw [value_bytesText, hrounded, text_bytesText] at hbelow
  exact ⟨(hbelow (by decide +kernel)).1, hplain (by decide)⟩

end Backpressure.DataSize
