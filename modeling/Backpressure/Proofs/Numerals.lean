import Backpressure.Text.Numeral
import Backpressure.Proofs.Products
import Mathlib.Data.List.DropRight

/-!
# Decimal numerals

* `stripWhile_append`, `exists_stripWhile` : the blanks around a text;
* `isBlank_of_isDecimalDigit` : no decimal digit is a blank;
* `digitValues` : the values of the decimal digits of a text, `takeDigits_append` : the digits that a text starts with;
* `realOfDigits_eq` : the double that digits and an exponent are read as;
* `readInteger_digits` : digits alone are read as the integer that they write;
* `numberOf_toDigits` : the digits of a natural number write it;
* `Numeral` : digits, and a point and digits or neither, `Numeral.value` : its value;
* `Numeral.readReal_chars` : a numeral is read as the double nearest to its value.
-/

namespace Backpressure.Text
open Number Binary64

/-! ## Blanks around a text -/

section Strip

variable {p : Char → Bool} {s : List Char}

theorem stripWhile_eq (p : Char → Bool) (s : List Char) : stripWhile p s = (s.dropWhile p).rdropWhile p := rfl

/-- What is added around a text is taken off again. -/
theorem stripWhile_append {before after : List Char} (hbefore : ∀ c ∈ before, p c = true)
    (hafter : ∀ c ∈ after, p c = true) (s : List Char) : stripWhile p (before ++ s ++ after) = stripWhile p s := by
  have hreverse : ∀ c ∈ after.reverse, p c = true := fun c hc => hafter c (List.mem_reverse.mp hc)
  unfold stripWhile
  rw [List.append_assoc, List.dropWhile_append_of_pos hbefore, List.dropWhile_append]
  split
  · next hempty =>
    rw [List.isEmpty_iff.mp hempty, List.dropWhile_eq_nil_iff.mpr hafter]
  · rw [List.reverse_append, List.dropWhile_append_of_pos hreverse]

theorem stripWhile_eq_self (hhead : ∀ c ∈ s.head?, p c = false) (hlast : ∀ c ∈ s.getLast?, p c = false) :
    stripWhile p s = s := by
  have hdrop : ∀ t : List Char, (∀ c ∈ t.head?, p c = false) → t.dropWhile p = t := by
    intro t ht
    cases t with
    | nil => rfl
    | cons c cs => exact List.dropWhile_cons_of_neg (by rw [ht c rfl]; nofun)
  unfold stripWhile
  rw [hdrop s hhead, hdrop s.reverse (by rwa [List.head?_reverse]), List.reverse_reverse]

/-- A text is its stripped form with characters of the class around it. -/
theorem exists_stripWhile (p : Char → Bool) (s : List Char) : ∃ before after, s = before ++ stripWhile p s ++ after ∧
    (∀ c ∈ before, p c = true) ∧ ∀ c ∈ after, p c = true := by
  refine ⟨s.takeWhile p, (s.dropWhile p).rtakeWhile p, ?_, fun _ => List.mem_takeWhile_imp,
    fun _ => List.mem_rtakeWhile_imp⟩
  rw [stripWhile_eq, List.append_assoc, List.rdropWhile_append_rtakeWhile, List.takeWhile_append_dropWhile]

theorem stripWhile_eq_nil_iff : stripWhile p s = [] ↔ ∀ c ∈ s, p c = true := by
  constructor
  · intro h
    obtain ⟨before, after, hs, hbefore, hafter⟩ := exists_stripWhile p s
    rw [h, List.append_nil] at hs
    rw [hs]
    exact fun c hc => (List.mem_append.mp hc).elim (hbefore c) (hafter c)
  · intro h
    rw [stripWhile_eq, List.dropWhile_eq_nil_iff.mpr h]
    rfl

end Strip

/-! ## Digits -/

section Digits

variable {c : Char} {cs : List Char}

theorem isDecimalDigit_iff : isDecimalDigit c = true ↔ ∃ z ∈ decimalZeros, z ≤ c.toNat ∧ c.toNat < z + 10 := by
  unfold isDecimalDigit decimalDigit?
  rw [List.findSome?_isSome_iff]
  refine exists_congr fun z => and_congr_right fun _ => ?_
  split
  · next h => exact ⟨fun _ => h, fun _ => rfl⟩
  · next h => exact ⟨nofun, fun h' => absurd h' h⟩

theorem isBlank_iff : isBlank c = true ↔ ∃ r ∈ blankRanges, r.1 ≤ c.toNat ∧ c.toNat ≤ r.2 := by
  unfold isBlank inRanges
  simp only [List.any_eq_true, Bool.and_eq_true, decide_eq_true_eq]

theorem isBlank_of_isDecimalDigit (h : isDecimalDigit c = true) : isBlank c = false := by
  have hdisjoint : ∀ z ∈ decimalZeros, ∀ r ∈ blankRanges, z + 10 ≤ r.1 ∨ r.2 < z := by decide
  obtain ⟨z, hz, hle, hlt⟩ := isDecimalDigit_iff.mp h
  refine Bool.eq_false_iff.mpr fun hblank => ?_
  obtain ⟨r, hr, hlow, hhigh⟩ := isBlank_iff.mp hblank
  have := hdisjoint z hz r hr
  omega

theorem isDigit_of_isDecimalDigit (h : isDecimalDigit c = true) : isDigit c = true := by
  unfold isDigit
  rw [h, Bool.true_or]

theorem decimalDigit?_lt {d : Nat} (h : decimalDigit? c = some d) : d < 10 := by
  unfold decimalDigit? at h
  obtain ⟨z, -, hz⟩ := List.exists_of_findSome?_eq_some h
  split at hz
  · injection hz with hz
    omega
  · cases hz

theorem toLower_eq_self (h : c.toNat < 0x41 ∨ 0x5A < c.toNat) : c.toLower = c := by
  refine dif_neg fun hc => ?_
  have hlow : 0x41 ≤ c.toNat := hc.1
  have hhigh : c.toNat ≤ 0x5A := hc.2
  omega

theorem toLower_of_isDecimalDigit (h : isDecimalDigit c = true) : c.toLower = c := by
  have hcapital : ∀ z ∈ decimalZeros, z + 10 ≤ 0x41 ∨ 0x5A < z := by decide
  obtain ⟨z, hz, hle, hlt⟩ := isDecimalDigit_iff.mp h
  have := hcapital z hz
  exact toLower_eq_self (by omega)

/-- The values of the decimal digits of a text. -/
def digitValues (cs : List Char) : List Nat := cs.filterMap decimalDigit?

theorem digitValues_append (cs ds : List Char) : digitValues (cs ++ ds) = digitValues cs ++ digitValues ds :=
  List.filterMap_append

theorem length_digitValues (h : ∀ c ∈ cs, isDecimalDigit c = true) : (digitValues cs).length = cs.length :=
  List.filterMap_length_eq_length.mpr h

theorem lt_ten_of_mem_digitValues {d : Nat} (h : d ∈ digitValues cs) : d < 10 := by
  obtain ⟨c, -, hc⟩ := List.mem_filterMap.mp h
  exact decimalDigit?_lt hc

/-- The digits that a text starts with, if neither a digit nor an underscore follows them. -/
theorem takeDigits_append {rest : List Char} (h : ∀ c ∈ cs, isDecimalDigit c = true)
    (hrest : ∀ c ∈ rest.head?, isDecimalDigit c = false ∧ c ≠ '_') (between : Bool) :
    takeDigits between (cs ++ rest) = (digitValues cs, rest) := by
  induction cs generalizing between with
  | nil =>
    cases rest with
    | nil => rfl
    | cons c rest =>
      obtain ⟨hdigit, hunderscore⟩ := hrest c rfl
      have hnone : decimalDigit? c = none := Option.not_isSome_iff_eq_none.mp (Bool.eq_false_iff.mp hdigit)
      have hother : (between && c == '_' && rest.head?.any isDecimalDigit) = false := by
        rw [beq_false_of_ne hunderscore, Bool.and_false, Bool.false_and]
      simp only [List.nil_append, takeDigits, hnone, hother]
      rfl
  | cons c cs ih =>
    obtain ⟨d, hd⟩ := Option.isSome_iff_exists.mp (h c List.mem_cons_self)
    have htail := ih (fun c' hc' => h c' (List.mem_cons_of_mem c hc')) true
    simp only [List.cons_append, takeDigits, hd, htail, digitValues, List.filterMap_cons]

theorem takeDigits_eq (h : ∀ c ∈ cs, isDecimalDigit c = true) (between : Bool) :
    takeDigits between cs = (digitValues cs, []) := by
  have hend : ∀ c ∈ ([] : List Char).head?, isDecimalDigit c = false ∧ c ≠ '_' := nofun
  simpa using takeDigits_append h hend between

end Digits

/-! ## The number that digits write -/

section DigitsValue

variable {ds : List Nat}

theorem digitsValue_concat (ds : List Nat) (d : Nat) : digitsValue (ds ++ [d]) = 10 * digitsValue ds + d :=
  List.foldl_append

theorem digitsValue_lt (h : ∀ d ∈ ds, d < 10) : digitsValue ds < 10 ^ ds.length := by
  induction ds using List.reverseRecOn with
  | nil => exact Nat.one_pos
  | append_singleton ds d ih =>
    have hlt := ih fun d' hd' => h d' (List.mem_append_left _ hd')
    have hd := h d (List.mem_append_right _ List.mem_cons_self)
    rw [digitsValue_concat, List.length_append, List.length_singleton, Nat.pow_succ]
    omega

/-- Digits that do not start with a zero write a number of as many digits. -/
theorem le_digitsValue {d : Nat} (h : d ≠ 0) (ds : List Nat) : 10 ^ ds.length ≤ digitsValue (d :: ds) := by
  induction ds using List.reverseRecOn with
  | nil =>
    show 1 ≤ 10 * 0 + d
    omega
  | append_singleton ds e ih =>
    rw [← List.cons_append, digitsValue_concat, List.length_append, List.length_singleton, Nat.pow_succ]
    omega

theorem digitsValue_dropWhile_zero (ds : List Nat) : digitsValue (ds.dropWhile (· == 0)) = digitsValue ds := by
  induction ds with
  | nil => rfl
  | cons d ds ih =>
    by_cases hd : d = 0
    · subst hd
      exact ih
    · rw [List.dropWhile_cons_of_neg (by simpa using hd)]

/-- The number of digits that a number has without leading zeros. -/
theorem digitsValue_bounds (h : ∀ d ∈ ds, d < 10) (hpos : digitsValue ds ≠ 0) :
    ∃ k, (ds.dropWhile (· == 0)).length = k + 1 ∧ 10 ^ k ≤ digitsValue ds ∧ digitsValue ds < 10 ^ (k + 1) := by
  rw [← digitsValue_dropWhile_zero ds] at hpos ⊢
  cases hds : ds.dropWhile (· == 0) with
  | nil => exact absurd (congrArg digitsValue hds) hpos
  | cons d rest =>
    have hd : d ≠ 0 := by
      have hhead := List.head_dropWhile_not (· == 0) (l := ds) (by rw [hds]; nofun)
      simpa [hds] using hhead
    have hlt : ∀ e ∈ d :: rest, e < 10 := fun e he =>
      h e ((List.dropWhile_sublist (· == 0)).mem (hds ▸ he))
    exact ⟨rest.length, rfl, le_digitsValue hd rest, digitsValue_lt hlt⟩

theorem scaled_eq (m : Nat) (e : Int) : Decimal.scaled m e = m * (10 : Rat) ^ e := by
  unfold Decimal.scaled tenTo
  split
  · next hnonneg =>
    obtain ⟨j, rfl⟩ := Int.eq_ofNat_of_zero_le hnonneg
    rw [zpow_natCast, Int.toNat_natCast, Nat.pow_eq, Nat.cast_mul, Nat.cast_pow, Nat.cast_ofNat]
  · next hneg =>
    obtain ⟨j, hj⟩ := Int.eq_ofNat_of_zero_le (show 0 ≤ -e by omega)
    have he : e = -(j : Int) := by omega
    rw [he, neg_neg, Int.toNat_natCast, zpow_neg, zpow_natCast, Rat.mkRat_eq_div, Nat.pow_eq, Nat.cast_pow,
      Nat.cast_ofNat, Int.cast_natCast, div_eq_mul_inv]

/-- Numbers up to 10^-400 are nearer to zero than to any other double. -/
theorem nearest_of_le_tenth_power {q : Rat} (hq : 0 ≤ q) (h : q ≤ 10 ^ (-400 : Int)) : nearest q = 0 := by
  refine nearest_eq_zero hq ?_
  calc q * 2 ^ 1074 ≤ 10 ^ (-400 : Int) * 2 ^ 1074 := mul_le_mul_of_nonneg_right h (by positivity)
    _ = (10 ^ 400)⁻¹ * (2 ^ 3) ^ 358 := by
        rw [zpow_neg, ← pow_mul]
        rfl
    _ ≤ (10 ^ 400)⁻¹ * 10 ^ 358 :=
        mul_le_mul_of_nonneg_left (pow_le_pow_left₀ (by norm_num) (by norm_num) _) (by positivity)
    _ < 1 / 2 := by
        rw [show 400 = 358 + 42 from rfl, pow_add, mul_inv, mul_right_comm, inv_mul_cancel₀ (by positivity)]
        norm_num

theorem nearest_of_ten_power_le {q : Rat} (h : (10 : Rat) ^ (342 : Int) ≤ q) : nearest q = infinity := by
  refine nearest_eq_infinity ?_
  calc (overflow : Rat) ≤ 2 ^ 1024 := overflow_le_two_pow
    _ ≤ 2 ^ (3 * 342) := pow_le_pow_right₀ one_le_two (by norm_num)
    _ = (2 ^ 3) ^ 342 := pow_mul _ _ _
    _ ≤ 10 ^ 342 := pow_le_pow_left₀ (by norm_num) (by norm_num) _
    _ = 10 ^ (342 : Int) := (zpow_natCast _ _).symm
    _ ≤ q := h

/-- The powers that are not computed make no difference: so small or large a number has 0 or an infinity nearest. -/
theorem realOfDigits_eq (h : ∀ d ∈ ds, d < 10) (e : Int) :
    realOfDigits ds e = nearest (digitsValue ds * (10 : Rat) ^ e) := by
  unfold realOfDigits
  dsimp only
  by_cases hzero : digitsValue ds = 0
  · rw [if_pos (.inl hzero), hzero, Nat.cast_zero, zero_mul]
    rfl
  obtain ⟨k, hlength, hlow, hhigh⟩ := digitsValue_bounds h hzero
  have hpow : (0 : Rat) < 10 ^ e := by positivity
  have hbelow : (digitsValue ds : Rat) * 10 ^ e < 10 ^ ((k + 1 : Nat) + e) := by
    rw [zpow_add₀ (by norm_num), zpow_natCast]
    exact mul_lt_mul_of_pos_right (by exact_mod_cast hhigh) hpow
  have habove : (10 : Rat) ^ ((k : Int) + e) ≤ digitsValue ds * 10 ^ e := by
    rw [zpow_add₀ (by norm_num), zpow_natCast]
    exact mul_le_mul_of_nonneg_right (by exact_mod_cast hlow) hpow.le
  rw [hlength]
  split
  · next hsmall =>
    have hplaces := hsmall.resolve_left hzero
    refine (nearest_of_le_tenth_power (by positivity) (hbelow.le.trans ?_)).symm
    exact zpow_le_zpow_right₀ (by norm_num) hplaces.le
  · split
    · next hlarge =>
      refine (nearest_of_ten_power_le (le_trans ?_ habove)).symm
      exact zpow_le_zpow_right₀ (by norm_num) (by push_cast at hlarge ⊢; omega)
    · rw [scaled_eq]

end DigitsValue

/-! ## Digits alone -/

/-- The number that the decimal digits of a text write. -/
def numberOf (cs : List Char) : Nat := digitsValue (digitValues cs)

theorem isNumeralBlank_of_isDecimalDigit {c : Char} (h : isDecimalDigit c = true) : isNumeralBlank c = false := by
  unfold isNumeralBlank
  rw [isBlank_of_isDecimalDigit h, Bool.false_and]

theorem takeSign_of_isDecimalDigit {cs : List Char} (h : ∀ c ∈ cs.head?, isDecimalDigit c = true) :
    takeSign cs = (false, cs) := by
  unfold takeSign
  split
  · exact absurd (h '-' rfl) (by decide)
  · exact absurd (h '+' rfl) (by decide)
  · rfl

/-- Digits alone are read as the integer that they write. -/
theorem readInteger_digits {cs : List Char} (hne : cs ≠ []) (h : ∀ c ∈ cs, isDecimalDigit c = true) :
    readInteger (String.ofList cs) =
      if maxIntegerDigits < cs.length then .error (.tooManyDigits cs.length) else .ok (numberOf cs : Nat) := by
  have hstrip : stripWhile isNumeralBlank cs = cs := stripWhile_eq_self
    (fun c hc => isNumeralBlank_of_isDecimalDigit (h c (List.mem_of_head? hc)))
    (fun c hc => isNumeralBlank_of_isDecimalDigit (h c (List.mem_of_getLast? hc)))
  have htake := takeDigits_eq h false
  have hnonempty : (digitValues cs).isEmpty = false := by
    rw [List.isEmpty_eq_false_iff, ← List.length_pos_iff, length_digitValues h]
    exact List.length_pos_iff.mpr hne
  unfold readInteger
  rw [String.toList_ofList, hstrip, takeSign_of_isDecimalDigit fun c hc => h c (List.mem_of_head? hc)]
  dsimp only
  rw [htake]
  dsimp only
  rw [hnonempty, length_digitValues h]
  rfl

/-! ## ASCII digits -/

theorem decimalDigit?_of_isDigit {c : Char} (h : c.isDigit = true) : decimalDigit? c = some (c.toNat - 0x30) := by
  obtain ⟨hlow, hhigh⟩ := Bool.and_eq_true_iff.mp h
  have hlow' : 0x30 ≤ c.toNat := of_decide_eq_true hlow
  have hhigh' : c.toNat ≤ 0x39 := of_decide_eq_true hhigh
  unfold decimalDigit? decimalZeros
  rw [List.findSome?_cons, if_pos ⟨hlow', by omega⟩]

theorem isDecimalDigit_of_isDigit {c : Char} (h : c.isDigit = true) : isDecimalDigit c = true := by
  unfold isDecimalDigit
  rw [decimalDigit?_of_isDigit h]
  rfl

theorem isDigit_of_mem_toDigits {n : Nat} {c : Char} (h : c ∈ Nat.toDigits 10 n) : c.isDigit = true :=
  Nat.isDigit_of_mem_toDigits (by decide) (by decide) h

/-- The digits of a natural number write it. -/
theorem numberOf_toDigits (n : Nat) : numberOf (Nat.toDigits 10 n) = n := by
  have hvalues : ∀ cs : List Char, (∀ c ∈ cs, c.isDigit = true) → digitValues cs = cs.map fun c => c.toNat - 0x30 := by
    intro cs hcs
    rw [← List.filterMap_eq_map]
    exact List.filterMap_congr fun c hc => decimalDigit?_of_isDigit (hcs c hc)
  unfold numberOf digitsValue
  rw [hvalues _ fun _ => isDigit_of_mem_toDigits, List.foldl_map]
  exact Nat.ofDigitChars_eq_foldl.symm.trans Nat.ofDigitChars_ten_toDigits

/-! ## Numerals with a fraction -/

/-- A decimal numeral: digits, and a point and more digits or neither. -/
structure Numeral where
  whole : List Char
  fraction : List Char
  whole_ne_nil : whole ≠ []
  whole_digits : ∀ c ∈ whole, isDecimalDigit c = true
  fraction_digits : ∀ c ∈ fraction, isDecimalDigit c = true

namespace Numeral

/-- The point and the digits after it. -/
def tail (d : Numeral) : List Char := if d.fraction = [] then [] else '.' :: d.fraction

def chars (d : Numeral) : List Char := d.whole ++ d.tail

/-- The number that the digits write without the point. -/
def digits (d : Numeral) : Nat := numberOf (d.whole ++ d.fraction)

def value (d : Numeral) : Rat := d.digits / 10 ^ d.fraction.length

/-- The numeral of digits without a point. -/
def ofDigits (cs : List Char) (hne : cs ≠ []) (h : ∀ c ∈ cs, isDecimalDigit c = true) : Numeral :=
  ⟨cs, [], hne, h, nofun⟩

theorem value_ofDigits {cs : List Char} (hne : cs ≠ []) (h : ∀ c ∈ cs, isDecimalDigit c = true) :
    (ofDigits cs hne h).value = numberOf cs := by
  unfold value digits ofDigits
  rw [List.append_nil, List.length_nil, pow_zero, div_one]

variable (d : Numeral)

theorem value_nonneg : 0 ≤ d.value := by
  unfold value
  positivity

theorem chars_ne_nil : d.chars ≠ [] := List.append_ne_nil_of_left_ne_nil d.whole_ne_nil _

theorem isDecimalDigit_head {c : Char} (h : c ∈ d.chars.head?) : isDecimalDigit c = true := by
  unfold chars at h
  rw [List.head?_append_of_ne_nil _ d.whole_ne_nil] at h
  exact d.whole_digits c (List.mem_of_head? h)

theorem isDecimalDigit_last {c : Char} (h : c ∈ d.chars.getLast?) : isDecimalDigit c = true := by
  unfold chars tail at h
  split at h
  · rw [List.append_nil] at h
    exact d.whole_digits c (List.mem_of_getLast? h)
  · next hne =>
    rw [List.getLast?_append_of_ne_nil _ (List.cons_ne_nil _ _), List.getLast?_cons_of_ne_nil hne] at h
    exact d.fraction_digits c (List.mem_of_getLast? h)

theorem takeFraction_tail : takeFraction d.tail = (digitValues d.fraction, []) := by
  unfold tail
  split
  · next hnil =>
    rw [hnil]
    rfl
  · exact takeDigits_eq d.fraction_digits false

theorem takeDigits_chars : takeDigits false d.chars = (digitValues d.whole, d.tail) := by
  refine takeDigits_append d.whole_digits ?_ false
  intro c hc
  unfold tail at hc
  split at hc
  · cases hc
  · cases hc
    decide

/-- A numeral does not spell an infinity or NaN. -/
theorem lower_chars_ne {name : List Char} (h : ∀ c ∈ name.head?, isDecimalDigit c = false) :
    d.chars.map Char.toLower ≠ name := by
  intro heq
  obtain ⟨c, cs, hchars⟩ := List.exists_cons_of_ne_nil d.chars_ne_nil
  have hc := d.isDecimalDigit_head (c := c) (by rw [hchars]; rfl)
  rw [← heq, hchars] at h
  have := h c.toLower rfl
  rw [toLower_of_isDecimalDigit hc, hc] at this
  cases this

theorem unsignedReal?_chars : unsignedReal? d.chars = some (nearest d.value) := by
  have hname : ∀ name : String, (∀ c ∈ name.toList.head?, isDecimalDigit c = false) →
      String.ofList (d.chars.map Char.toLower) ≠ name := fun name hhead heq =>
    d.lower_chars_ne hhead (by rw [← heq, String.toList_ofList])
  have hnonempty : (digitValues d.whole).isEmpty = false := by
    rw [List.isEmpty_eq_false_iff, ← List.length_pos_iff, length_digitValues d.whole_digits]
    exact List.length_pos_iff.mpr d.whole_ne_nil
  have hvalue : (digitsValue (digitValues (d.whole ++ d.fraction)) : Rat) *
      10 ^ (0 - (d.fraction.length : Int)) = d.value := by
    rw [zero_sub, zpow_neg, zpow_natCast, ← div_eq_mul_inv]
    rfl
  unfold unsignedReal?
  dsimp only
  rw [if_neg (not_or.mpr ⟨hname "inf" fun | _, rfl => by decide, hname "infinity" fun | _, rfl => by decide⟩),
    if_neg (hname "nan" fun | _, rfl => by decide), d.takeDigits_chars]
  dsimp only
  rw [d.takeFraction_tail]
  dsimp only
  rw [hnonempty, Bool.false_and, Bool.false_or, ← digitValues_append,
    realOfDigits_eq (fun _ => lt_ten_of_mem_digitValues), length_digitValues d.fraction_digits]
  exact congrArg (fun q => some (nearest q)) hvalue

/-- A numeral is read as the double nearest to its value. -/
theorem readReal_chars : readReal (String.ofList d.chars) = .ok (nearest d.value) := by
  have hstrip : stripWhile isNumeralBlank d.chars = d.chars := stripWhile_eq_self
    (fun _ hc => isNumeralBlank_of_isDecimalDigit (d.isDecimalDigit_head hc))
    (fun _ hc => isNumeralBlank_of_isDecimalDigit (d.isDecimalDigit_last hc))
  unfold readReal
  rw [String.toList_ofList, hstrip, takeSign_of_isDecimalDigit fun _ => d.isDecimalDigit_head]
  dsimp only
  rw [d.unsignedReal?_chars]
  rfl

end Numeral

end Backpressure.Text
