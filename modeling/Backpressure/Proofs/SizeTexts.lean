import Backpressure.DataSize
import Backpressure.Proofs.Numerals

/-!
# Texts of data sizes

* `unitNames` : the units, by their powers of 1024, `isUnit_iff` : what is taken for a unit;
* `SizeText` : an amount and a unit with blanks around and between;
* `split?_eq_some_iff` : the texts that are split are an amount, blanks and a unit;
* `parseText_blank`, `parseText_digits`, `SizeText.parseText_text`, `parseText_other` : what a text of each form stands
  for.
-/

namespace Backpressure.DataSize
open Text

/-! ## Units -/

/-- The names of the units, each at its power of 1024. -/
def unitNames : List (List Char) := [['B'], ['K', 'B'], ['M', 'B'], ['G', 'B'], ['T', 'B'], ['P', 'B']]

/-- Whether a text is the unit of a power of 1024, in any case. -/
def Names (unit : List Char) (k : Nat) : Prop := unitNames[k]? = some (unit.map Char.toUpper)

/-- Whether a text spells the kilobyte with the Kelvin sign. -/
def IsKelvin (unit : List Char) : Prop := unit.map Char.toUpper = [kelvinSign, 'B']

/-- Whether a text is a unit or spelled as one. -/
def Spelled (unit : List Char) : Prop := (∃ k, Names unit k) ∨ IsKelvin unit

section Units

variable {c : Char} {unit : List Char} {k : Nat}

theorem toUpper_eq_self (h : c.toNat < 0x61 ∨ 0x7A < c.toNat) : c.toUpper = c := by
  refine dif_neg fun hc => ?_
  have hlow : 0x61 ≤ c.toNat := hc.1
  have hhigh : c.toNat ≤ 0x7A := hc.2
  omega

/-- A character is a small letter, or `toUpper` leaves it as it is. -/
theorem small_or_toUpper_eq_self (c : Char) : (∃ n : Fin 26, c = Char.ofNat (0x61 + n)) ∨ c.toUpper = c := by
  by_cases hsmall : c.toNat < 0x61 ∨ 0x7A < c.toNat
  · exact .inr (toUpper_eq_self hsmall)
  · refine .inl ⟨⟨c.toNat - 0x61, by omega⟩, ?_⟩
    rw [show 0x61 + (c.toNat - 0x61) = c.toNat by omega, Char.ofNat_toNat]

theorem toUpper_eq_kelvinSign_iff : c.toUpper = kelvinSign ↔ c = kelvinSign := by
  rcases small_or_toUpper_eq_self c with ⟨n, rfl⟩ | hself
  · have hletters : ∀ n : Fin 26,
        (Char.ofNat (0x61 + n)).toUpper = kelvinSign ↔ Char.ofNat (0x61 + n) = kelvinSign := by decide +kernel
    exact hletters n
  · rw [hself]

theorem exists_names_iff : (∃ k, Names unit k) ↔ unit.map Char.toUpper ∈ unitNames := List.mem_iff_getElem?.symm

theorem Names.lt (h : Names unit k) : k < 6 := (List.getElem?_eq_some_iff.mp h).1

theorem isUnit_iff : isUnit unit = true ↔ Spelled unit := by
  unfold Spelled IsKelvin
  rw [exists_names_iff]
  match unit with
  | [] => decide
  | [b] => simp [isUnit, unitNames]
  | [p, b] =>
    simp only [isUnit, unitLetters, unitNames, List.map_cons, List.map_nil, Bool.and_eq_true, Bool.or_eq_true,
      List.contains_iff_mem, beq_iff_eq, List.mem_cons, List.cons.injEq, List.not_mem_nil, or_false, and_true,
      toUpper_eq_kelvinSign_iff]
    tauto
  | p :: q :: b :: rest => simp [isUnit, unitNames]

/-- The characters that units are written with, in upper case. -/
def unitCharacters : List Char := kelvinSign :: 'B' :: unitLetters

theorem Spelled.mem (h : Spelled unit) (hc : c ∈ unit) : c.toUpper ∈ unitCharacters := by
  have hall : ([kelvinSign, 'B'] :: unitNames).all (·.all unitCharacters.contains) = true := by decide
  have hname : unit.map Char.toUpper ∈ [kelvinSign, 'B'] :: unitNames := by
    rcases h with h | h
    · exact List.mem_cons_of_mem _ (exists_names_iff.mp h)
    · exact h ▸ List.mem_cons_self
  exact List.contains_iff_mem.mp
    (List.all_eq_true.mp (List.all_eq_true.mp hall _ hname) _ (List.mem_map_of_mem hc))

theorem Spelled.ne_nil (h : Spelled unit) : unit ≠ [] := by
  rintro rfl
  rcases h with h | h
  · exact absurd (exists_names_iff.mp h) (by decide)
  · cases h

/-- No character of a unit can stand in what comes before it. -/
theorem Spelled.other (h : Spelled unit) (hc : c ∈ unit) :
    isDigit c = false ∧ isBlank c = false ∧ c ≠ '.' ∧ c ≠ '_' := by
  rcases small_or_toUpper_eq_self c with ⟨n, rfl⟩ | hself
  · have hletters : ∀ n : Fin 26, isDigit (Char.ofNat (0x61 + n)) = false ∧ isBlank (Char.ofNat (0x61 + n)) = false ∧
        Char.ofNat (0x61 + n) ≠ '.' ∧ Char.ofNat (0x61 + n) ≠ '_' := by decide +kernel
    exact hletters n
  · have hall : unitCharacters.all (fun u => !isDigit u && !isBlank u && u != '.' && u != '_') = true := by decide
    have hother := List.all_eq_true.mp hall _ (h.mem hc)
    rw [hself] at hother
    simpa [and_assoc] using hother

theorem unitBytes_of_names (h : Names unit k) : unitBytes unit = .ok (1024 ^ k) := by
  have hk := h.lt
  unfold Names at h
  match unit with
  | [] => exact absurd (List.mem_of_getElem? h) (by decide)
  | [b] =>
    have hpower : ∀ j < 6, unitNames[j]?.map List.length = some 1 → j = 0 := by decide
    obtain rfl := hpower k hk (by rw [h]; rfl)
    rfl
  | [p, b] =>
    have hindex : ∀ j < 6, unitNames[j]?.map List.length = some 2 →
        ((unitNames[j]?.bind List.head?).bind unitLetters.idxOf?).map (· + 1) = some j := by decide
    have hletter := hindex k hk (by rw [h]; rfl)
    rw [h] at hletter
    obtain ⟨i, hi, hik⟩ := Option.map_eq_some_iff.mp hletter
    replace hi : unitLetters.idxOf? p.toUpper = some i := hi
    simp only [unitBytes, hi, Nat.pow_eq, hik]
  | p :: q :: b :: rest =>
    have hlength : ∀ name ∈ unitNames, name.length ≤ 2 := by decide
    exact absurd (hlength _ (List.mem_of_getElem? h)) (by simp)

theorem unitBytes_of_kelvin (h : IsKelvin unit) :
    unitBytes unit = .error (.unknownUnit (String.ofList [kelvinSign, 'B'])) := by
  have hlength : unit.length = 2 := by simpa using congrArg List.length h
  obtain ⟨p, b, rfl⟩ := List.length_eq_two.mp hlength
  obtain ⟨hp, hb⟩ : p.toUpper = kelvinSign ∧ b.toUpper = 'B' := by simpa [IsKelvin] using h
  have hno : unitLetters.idxOf? kelvinSign = none := by decide
  obtain rfl : p = kelvinSign := toUpper_eq_kelvinSign_iff.mp hp
  simp only [unitBytes, hp, hb, hno]

end Units

/-! ## Amounts with a unit -/

/-- The text of a data size: an amount and a unit, with blanks around and between them or none. -/
structure SizeText where
  before : List Char
  amount : Numeral
  gap : List Char
  unit : List Char
  after : List Char
  before_blank : ∀ c ∈ before, isBlank c = true
  gap_blank : ∀ c ∈ gap, isBlank c = true
  after_blank : ∀ c ∈ after, isBlank c = true
  spelled : Spelled unit

/-- The text without the blanks around it. -/
def SizeText.core (t : SizeText) : List Char := t.amount.chars ++ (t.gap ++ t.unit)

def SizeText.text (t : SizeText) : String := String.ofList (t.before ++ t.core ++ t.after)

section Split

variable {cs gap unit : List Char}

theorem not_isDecimalDigit_of_isBlank {c : Char} (h : isBlank c = true) : isDecimalDigit c = false :=
  Bool.eq_false_iff.mpr fun hdigit => absurd h (by rw [isBlank_of_isDecimalDigit hdigit]; nofun)

theorem not_isDecimalDigit_of_not_isDigit {c : Char} (h : isDigit c = false) : isDecimalDigit c = false :=
  (Bool.or_eq_false_iff.mp h).1

/-- What follows an amount starts with neither a digit nor a point. -/
theorem head_gap_unit (hgap : ∀ c ∈ gap, isBlank c = true) (hunit : Spelled unit) {c : Char}
    (hc : c ∈ (gap ++ unit).head?) : isDecimalDigit c = false ∧ c ≠ '.' := by
  rcases List.mem_append.mp (List.mem_of_head? hc) with hc | hc
  · refine ⟨not_isDecimalDigit_of_isBlank (hgap c hc), ?_⟩
    rintro rfl
    exact absurd (hgap _ hc) (by decide)
  · obtain ⟨hdigit, -, hpoint, -⟩ := hunit.other hc
    exact ⟨not_isDecimalDigit_of_not_isDigit hdigit, hpoint⟩

theorem takeWhile_append_of_head {p : Char → Bool} {rest : List Char} (h : ∀ c ∈ cs, p c = true)
    (hrest : ∀ c ∈ rest.head?, p c = false) :
    (cs ++ rest).takeWhile p = cs ∧ (cs ++ rest).dropWhile p = rest := by
  rw [List.takeWhile_append_of_pos h, List.dropWhile_append_of_pos h]
  cases rest with
  | nil => exact ⟨List.append_nil cs, rfl⟩
  | cons c rest =>
    have hc : ¬ p c = true := by
      rw [hrest c rfl]
      nofun
    rw [List.takeWhile_cons_of_neg hc, List.dropWhile_cons_of_neg hc, List.append_nil]
    exact ⟨rfl, rfl⟩

theorem splitFraction_tail (d : Numeral) (hrest : ∀ c ∈ (gap ++ unit).head?, isDecimalDigit c = false ∧ c ≠ '.') :
    splitFraction (d.tail ++ (gap ++ unit)) = (d.tail, gap ++ unit) := by
  generalize gap ++ unit = rest at hrest ⊢
  unfold Numeral.tail
  split
  · show splitFraction rest = ([], rest)
    unfold splitFraction
    split
    · exact absurd rfl (hrest '.' rfl).2
    · rfl
  · next hne =>
    obtain ⟨htake, hdrop⟩ := takeWhile_append_of_head d.fraction_digits fun c hc => (hrest c hc).1
    show (if ((d.fraction ++ rest).takeWhile isDecimalDigit).isEmpty then _ else
      ('.' :: (d.fraction ++ rest).takeWhile isDecimalDigit, (d.fraction ++ rest).dropWhile isDecimalDigit)) = _
    rw [htake, hdrop, if_neg (by simpa using hne)]

/-- A fraction that is split off is a point and digits, or nothing. -/
theorem splitFraction_sound (cs : List Char) : ∃ ds, (∀ c ∈ ds, isDecimalDigit c = true) ∧
    (splitFraction cs).1 = (if ds = [] then [] else '.' :: ds) ∧
    cs = (splitFraction cs).1 ++ (splitFraction cs).2 := by
  unfold splitFraction
  split
  · next rest =>
    dsimp only
    split
    · exact ⟨[], List.forall_mem_nil _, rfl, rfl⟩
    · next hne =>
      refine ⟨rest.takeWhile isDecimalDigit, fun _ => List.mem_takeWhile_imp, ?_, ?_⟩
      · rw [if_neg (by simpa using hne)]
      · exact congrArg _ List.takeWhile_append_dropWhile.symm
  · exact ⟨[], List.forall_mem_nil _, rfl, rfl⟩

theorem split?_chars (d : Numeral) (hgap : ∀ c ∈ gap, isBlank c = true) (hunit : Spelled unit) :
    split? (d.chars ++ (gap ++ unit)) = some (d.chars, unit) := by
  have hrest : ∀ c ∈ (gap ++ unit).head?, isDecimalDigit c = false ∧ c ≠ '.' := fun _ => head_gap_unit hgap hunit
  have htail : ∀ c ∈ (d.tail ++ (gap ++ unit)).head?, isDecimalDigit c = false := by
    intro c hc
    unfold Numeral.tail at hc
    split at hc
    · exact (hrest c hc).1
    · cases hc
      decide
  obtain ⟨hwhole, hdrop⟩ := takeWhile_append_of_head d.whole_digits htail
  have hletter : ∀ c ∈ unit.head?, isBlank c = false := fun c hc => (hunit.other (List.mem_of_head? hc)).2.1
  obtain ⟨-, hunit'⟩ := takeWhile_append_of_head hgap hletter
  unfold split?
  rw [show d.chars ++ (gap ++ unit) = d.whole ++ (d.tail ++ (gap ++ unit)) from List.append_assoc _ _ _, hwhole, hdrop,
    splitFraction_tail d hrest]
  dsimp only
  rw [hunit', isUnit_iff.mpr hunit, if_pos]
  · rfl
  · simpa using d.whole_ne_nil

theorem split?_sound {amount unit : List Char} (h : split? cs = some (amount, unit)) :
    ∃ (d : Numeral) (gap : List Char), (∀ c ∈ gap, isBlank c = true) ∧ Spelled unit ∧ amount = d.chars ∧
      cs = d.chars ++ (gap ++ unit) := by
  obtain ⟨ds, hds, hfraction, hparts⟩ := splitFraction_sound (cs.dropWhile isDecimalDigit)
  unfold split? at h
  dsimp only at h
  split at h
  · next haccepted =>
    obtain ⟨hwhole, hunit⟩ := Bool.and_eq_true_iff.mp haccepted
    obtain ⟨rfl, rfl⟩ := Prod.mk.inj (Option.some.inj h)
    refine ⟨⟨cs.takeWhile isDecimalDigit, ds, by simpa using hwhole, fun _ => List.mem_takeWhile_imp, hds⟩,
      (splitFraction (cs.dropWhile isDecimalDigit)).2.takeWhile isBlank, fun _ => List.mem_takeWhile_imp,
      isUnit_iff.mp hunit, congrArg _ hfraction, ?_⟩
    show cs = cs.takeWhile isDecimalDigit ++ (if ds = [] then [] else '.' :: ds) ++ _
    rw [List.takeWhile_append_dropWhile, List.append_assoc, ← hfraction, ← hparts, List.takeWhile_append_dropWhile]
  · cases h

/-- The texts that are split are those of an amount, blanks or none, and a unit. -/
theorem split?_eq_some_iff {amount unit : List Char} : split? cs = some (amount, unit) ↔
    ∃ (d : Numeral) (gap : List Char), (∀ c ∈ gap, isBlank c = true) ∧ Spelled unit ∧ amount = d.chars ∧
      cs = d.chars ++ (gap ++ unit) := by
  constructor
  · exact split?_sound
  · rintro ⟨d, gap, hgap, hunit, rfl, rfl⟩
    exact split?_chars d hgap hunit

end Split

/-! ## What texts stand for -/

theorem parseText_blank {s : String} (h : ∀ c ∈ s.toList, isBlank c = true) : parseText s = .ok none := by
  have hstrip : strip s.toList = [] := stripWhile_eq_nil_iff.mpr h
  unfold parseText
  rw [hstrip]
  rfl

theorem parseText_allDigits {s : String} (hne : strip s.toList ≠ []) (h : (strip s.toList).all isDigit = true) :
    parseText s = (readInteger (String.ofList (strip s.toList))).map fun n => some (.amount n) := by
  unfold parseText
  dsimp only
  rw [if_neg (by simpa using hne), if_pos h]

/-- Decimal digits alone, with blanks around them or none, stand for the number that they write. -/
theorem parseText_digits {before cs after : List Char} (hbefore : ∀ c ∈ before, isBlank c = true)
    (hafter : ∀ c ∈ after, isBlank c = true) (hne : cs ≠ []) (h : ∀ c ∈ cs, isDecimalDigit c = true) :
    parseText (String.ofList (before ++ cs ++ after)) =
      if maxIntegerDigits < cs.length then .error (.tooManyDigits cs.length)
      else .ok (some (.amount (numberOf cs : Nat))) := by
  have hstrip : strip (String.ofList (before ++ cs ++ after)).toList = cs := by
    unfold strip
    rw [String.toList_ofList, stripWhile_append hbefore hafter]
    exact stripWhile_eq_self (fun c hc => isBlank_of_isDecimalDigit (h c (List.mem_of_head? hc)))
      (fun c hc => isBlank_of_isDecimalDigit (h c (List.mem_of_getLast? hc)))
  have hall : cs.all isDigit = true := List.all_eq_true.mpr fun c hc => isDigit_of_isDecimalDigit (h c hc)
  rw [parseText_allDigits (by rwa [hstrip]) (by rwa [hstrip]), hstrip, readInteger_digits hne h]
  split <;> rfl

namespace SizeText

variable (t : SizeText)

theorem strip_text : strip t.text.toList = t.core := by
  unfold strip text
  rw [String.toList_ofList, stripWhile_append t.before_blank t.after_blank]
  refine stripWhile_eq_self (fun c hc => ?_) fun c hc => ?_
  · unfold core at hc
    rw [List.head?_append_of_ne_nil _ t.amount.chars_ne_nil] at hc
    exact isBlank_of_isDecimalDigit (t.amount.isDecimalDigit_head hc)
  · unfold core at hc
    rw [← List.append_assoc, List.getLast?_append_of_ne_nil _ t.spelled.ne_nil] at hc
    exact (t.spelled.other (List.mem_of_getLast? hc)).2.1

/-- A text with a unit stands for its amount of the unit. -/
theorem parseText_text : parseText t.text = (bytesOf t.amount.chars t.unit).map fun n => some (.amount n) := by
  have hne : t.core ≠ [] := List.append_ne_nil_of_left_ne_nil t.amount.chars_ne_nil _
  have hall : ¬ t.core.all isDigit = true := by
    intro hall
    obtain ⟨c, hc⟩ := List.exists_mem_of_ne_nil _ t.spelled.ne_nil
    have hdigit := List.all_eq_true.mp hall c (List.mem_append_right _ (List.mem_append_right _ hc))
    rw [(t.spelled.other hc).1] at hdigit
    cases hdigit
  unfold parseText
  dsimp only
  rw [t.strip_text, if_neg (by simpa using hne), if_neg hall]
  unfold core
  rw [split?_chars t.amount t.gap_blank t.spelled]

end SizeText

/-- A text that is neither blank, nor digits alone, nor an amount with a unit is refused. -/
theorem parseText_other {s : String} (hne : strip s.toList ≠ []) (hall : (strip s.toList).all isDigit = false)
    (h : ∀ t : SizeText, s ≠ t.text) : parseText s = .error (.invalidSize (quote s)) := by
  have hsplit : split? (strip s.toList) = none := by
    refine Option.eq_none_iff_forall_not_mem.mpr fun ⟨amount, unit⟩ hmem => ?_
    obtain ⟨d, gap, hgap, hunit, -, hcore⟩ := split?_eq_some_iff.mp hmem
    obtain ⟨before, after, hs, hbefore, hafter⟩ := exists_stripWhile isBlank s.toList
    refine h ⟨before, d, gap, unit, after, hbefore, hgap, hafter, hunit⟩ ?_
    refine String.toList_inj.mp ?_
    unfold SizeText.text SizeText.core
    rw [String.toList_ofList, ← hcore]
    exact hs
  unfold parseText
  dsimp only
  rw [if_neg (by simpa using hne), if_neg (by rw [hall]; nofun), hsplit]

end Backpressure.DataSize
