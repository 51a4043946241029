import Backpressure.Proofs.Sizes

/-!
# The grammar of data sizes

* `Failure` : the kinds of failure that a size can end in, `outcome` : the limit that a text stands for, or such a kind;
* `outcome_congr` : texts that differ in blanks around them and in the case of letters have the same outcome;
* `IsAmount` : an amount with a unit in ASCII;
* `parser_recognises_sizes` : which ASCII texts stand for no limit, and which are refused.
-/

namespace Backpressure.DataSize
open Number Binary64 Text

/-- The kinds of failure of a size. -/
inductive Failure where
  /-- The text is not written as a size is. -/
  | malformed
  /-- The unit has no name. -/
  | unnamed
  /-- The size is too large. -/
  | tooLarge
  deriving DecidableEq

/-- The kind of an error that the reading of a size ends in. -/
def Failure.of : Error → Failure
  | .unknownUnit _ => .unnamed
  | .infinityToInteger => .tooLarge
  | _ => .malformed

/-- The limit that a text stands for, or the kind of failure. -/
def outcome (s : String) : Except Failure (Option Limit) := (parse (.text s)).mapError Failure.of

/-! ## Letters in either case -/

section Case

variable {c c' : Char} {cs ds : List Char}

/-- A character is a capital letter, or `toLower` leaves it as it is. -/
theorem capital_or_toLower_eq_self (c : Char) : (∃ n : Fin 26, c = Char.ofNat (0x41 + n)) ∨ c.toLower = c := by
  by_cases hcapital : c.toNat < 0x41 ∨ 0x5A < c.toNat
  · exact .inr (toLower_eq_self hcapital)
  · refine .inl ⟨⟨c.toNat - 0x41, by omega⟩, ?_⟩
    rw [show 0x41 + (c.toNat - 0x41) = c.toNat by omega, Char.ofNat_toNat]

/-- What does not tell the two cases of a letter apart. -/
theorem toLower_invariant {α : Type} {f : Char → α}
    (h : ∀ n : Fin 26, f (Char.ofNat (0x41 + n)).toLower = f (Char.ofNat (0x41 + n))) (c : Char) :
    f c.toLower = f c := by
  rcases capital_or_toLower_eq_self c with ⟨n, rfl⟩ | hself
  · exact h n
  · rw [hself]

theorem isBlank_toLower : ∀ c : Char, isBlank c.toLower = isBlank c := toLower_invariant (by decide +kernel)

theorem isDigit_toLower : ∀ c : Char, isDigit c.toLower = isDigit c := toLower_invariant (by decide +kernel)

theorem toUpper_toLower : ∀ c : Char, c.toLower.toUpper = c.toUpper := toLower_invariant (by decide +kernel)

/-- Only letters have another case. -/
theorem eq_of_toLower_eq (h : c.toLower = c'.toLower) (hother : isDigit c' = true ∨ c' = '.') : c = c' := by
  have hletters : ∀ n : Fin 26, isDigit (Char.ofNat (0x41 + n)).toLower = false ∧
      (Char.ofNat (0x41 + n)).toLower ≠ '.' ∧ isDigit (Char.ofNat (0x41 + n)) = false ∧
      Char.ofNat (0x41 + n) ≠ '.' := by decide +kernel
  rcases capital_or_toLower_eq_self c' with ⟨n, rfl⟩ | hself'
  · obtain ⟨-, -, hdigit, hpoint⟩ := hletters n
    rcases hother with hother | hother
    · rw [hdigit] at hother
      cases hother
    · exact absurd hother hpoint
  rw [hself'] at h
  rcases capital_or_toLower_eq_self c with ⟨n, rfl⟩ | hself
  · obtain ⟨hdigit, hpoint, -, -⟩ := hletters n
    rw [h] at hdigit hpoint
    rcases hother with hother | hother
    · rw [hdigit] at hother
      cases hother
    · exact absurd hother hpoint
  · rwa [hself] at h

theorem eq_of_map_toLower_eq (h : cs.map Char.toLower = ds.map Char.toLower)
    (hother : ∀ c ∈ ds, isDigit c = true ∨ c = '.') : cs = ds := by
  induction ds generalizing cs with
  | nil => exact List.map_eq_nil_iff.mp h
  | cons d ds ih =>
    obtain ⟨c, cs, rfl⟩ := List.exists_cons_of_ne_nil (show cs ≠ [] by rintro rfl; cases h)
    obtain ⟨hhead, htail⟩ := List.cons.inj h
    rw [eq_of_toLower_eq hhead (hother d List.mem_cons_self),
      ih htail fun c hc => hother c (List.mem_cons_of_mem d hc)]

theorem map_toUpper_of_map_toLower (h : cs.map Char.toLower = ds.map Char.toLower) :
    cs.map Char.toUpper = ds.map Char.toUpper := by
  have hupper := congrArg (List.map Char.toUpper) h
  simpa only [List.map_map, Function.comp_def, toUpper_toLower] using hupper

theorem all_of_map_toLower {p : Char → Bool} (hp : ∀ c : Char, p c.toLower = p c)
    (h : cs.map Char.toLower = ds.map Char.toLower) : cs.all p = ds.all p := by
  have hall := congrArg (List.all · p) h
  simpa only [List.all_map, Function.comp_def, hp] using hall

theorem map_stripWhile {p : Char → Bool} (hp : ∀ c : Char, p c.toLower = p c) (cs : List Char) :
    (stripWhile p cs).map Char.toLower = stripWhile p (cs.map Char.toLower) := by
  have hdrop : ∀ cs : List Char, (cs.map Char.toLower).dropWhile p = (cs.dropWhile p).map Char.toLower := by
    intro cs
    rw [List.dropWhile_map]
    simp only [Function.comp_def, hp]
  unfold stripWhile
  rw [hdrop, ← List.map_reverse, hdrop, ← List.map_reverse]

end Case

/-! ## Texts that differ in case -/

section Congruence

variable {cs ds amount unit unit' : List Char}

theorem Spelled.of_map_toUpper (h : Spelled unit) (heq : unit.map Char.toUpper = unit'.map Char.toUpper) :
    Spelled unit' := by
  unfold Spelled Names IsKelvin at h ⊢
  rwa [← heq]

theorem bytesOf_congr (d : Numeral) (h : Spelled unit) (heq : unit.map Char.toUpper = unit'.map Char.toUpper) :
    bytesOf d.chars unit = bytesOf d.chars unit' := by
  rcases h with ⟨k, hunit⟩ | hkelvin
  · have hunit' : Names unit' k := by
      unfold Names at hunit ⊢
      rwa [← heq]
    rw [bytesOf_names d hunit, bytesOf_names d hunit']
  · have hkelvin' : IsKelvin unit' := by
      unfold IsKelvin at hkelvin ⊢
      rwa [← heq]
    rw [bytesOf_kelvin d hkelvin, bytesOf_kelvin d hkelvin']

theorem digit_or_point_of_mem_chars (d : Numeral) {c : Char} (hc : c ∈ d.chars) : isDigit c = true ∨ c = '.' := by
  unfold Numeral.chars Numeral.tail at hc
  split at hc
  · rw [List.append_nil] at hc
    exact .inl (isDigit_of_isDecimalDigit (d.whole_digits c hc))
  · rcases List.mem_append.mp hc with hc | hc
    · exact .inl (isDigit_of_isDecimalDigit (d.whole_digits c hc))
    · rcases List.mem_cons.mp hc with rfl | hc
      · exact .inr rfl
      · exact .inl (isDigit_of_isDecimalDigit (d.fraction_digits c hc))

/-- A text is split where one that differs in case is. -/
theorem split?_congr (heq : cs.map Char.toLower = ds.map Char.toLower) (h : split? cs = some (amount, unit)) :
    ∃ unit', split? ds = some (amount, unit') ∧ bytesOf amount unit = bytesOf amount unit' := by
  obtain ⟨d, gap, hgap, hunit, rfl, rfl⟩ := split?_eq_some_iff.mp h
  rw [List.map_append, List.map_append, eq_comm] at heq
  obtain ⟨chars', rest, rfl, hchars, hrest⟩ := List.map_eq_append_iff.mp heq
  obtain ⟨gap', unit', rfl, hgap', hunit'⟩ := List.map_eq_append_iff.mp hrest
  obtain rfl := eq_of_map_toLower_eq hchars fun c => digit_or_point_of_mem_chars d
  have hblank : ∀ c ∈ gap', isBlank c = true := by
    refine List.all_eq_true.mp ?_
    rw [all_of_map_toLower isBlank_toLower hgap']
    exact List.all_eq_true.mpr hgap
  have hupper := (map_toUpper_of_map_toLower hunit').symm
  exact ⟨unit', split?_chars d hblank (hunit.of_map_toUpper hupper), bytesOf_congr d hunit hupper⟩

/-- Texts that differ in the blanks around them and in the case of letters have the same outcome. -/
theorem outcome_congr {s t : String} (h : (strip s.toList).map Char.toLower = (strip t.toList).map Char.toLower) :
    outcome s = outcome t := by
  have hempty : (strip s.toList).isEmpty = (strip t.toList).isEmpty := by
    have := congrArg List.isEmpty h
    rwa [List.isEmpty_map, List.isEmpty_map] at this
  have hdigits := all_of_map_toLower isDigit_toLower h
  unfold outcome
  show (parseText s).mapError _ = (parseText t).mapError _
  unfold parseText
  dsimp only
  rw [hempty, hdigits]
  split
  · rfl
  · split
    · next hall =>
      rw [eq_of_map_toLower_eq h fun c hc => .inl (List.all_eq_true.mp hall c hc)]
    · cases hsplit : split? (strip s.toList) with
      | some parts =>
        obtain ⟨unit', hsplit', hbytes⟩ := split?_congr h hsplit
        rw [hsplit']
        dsimp only
        rw [hbytes]
      | none =>
        have hsplit' : split? (strip t.toList) = none := by
          refine Option.eq_none_iff_forall_not_mem.mpr fun parts hparts => ?_
          obtain ⟨unit', hsome, -⟩ := split?_congr h.symm hparts
          rw [hsplit] at hsome
          cases hsome
        rw [hsplit']
        rfl

end Congruence

/-! ## ASCII texts -/

/-- An amount with a unit: digits, a point and digits or neither, blanks or none, and a unit in any case. -/
def IsAmount (cs : List Char) : Prop :=
  ∃ whole fraction gap unit : List Char, cs = whole ++ fraction ++ gap ++ unit ∧
    (whole ≠ [] ∧ ∀ c ∈ whole, c.isDigit = true) ∧
    (fraction = [] ∨ ∃ ds, fraction = '.' :: ds ∧ ds ≠ [] ∧ ∀ c ∈ ds, c.isDigit = true) ∧
    (∀ c ∈ gap, isBlank c = true) ∧ unit.map Char.toUpper ∈ unitNames

section Ascii

theorem isDigit_iff_of_ascii {c : Char} (h : c.toNat < 0x80) : isDigit c = true ↔ c.isDigit = true := by
  refine ⟨fun hdigit => ?_, fun hdigit => isDigit_of_isDecimalDigit (isDecimalDigit_of_isDigit hdigit)⟩
  rcases Bool.or_eq_true_iff.mp hdigit with hdecimal | hlone
  · have hzeros : ∀ z ∈ decimalZeros, z = 0x30 ∨ 0x80 ≤ z := by decide
    obtain ⟨z, hz, hle, hlt⟩ := isDecimalDigit_iff.mp hdecimal
    have := hzeros z hz
    have hlow : 0x30 ≤ c.toNat := by omega
    have hhigh : c.toNat ≤ 0x39 := by omega
    exact Bool.and_eq_true_iff.mpr ⟨decide_eq_true hlow, decide_eq_true hhigh⟩
  · have hranges : ∀ r ∈ loneDigitRanges, 0x80 ≤ r.1 := by decide
    unfold inRanges at hlone
    obtain ⟨r, hr, hin⟩ := List.any_eq_true.mp hlone
    have hle := of_decide_eq_true (Bool.and_eq_true_iff.mp hin).1
    exact absurd (hranges r hr) (by omega)

variable {s : String}

theorem SizeText.core_mem {t : SizeText} {c : Char} (hc : c ∈ t.core) : c ∈ t.text.toList := by
  unfold text
  rw [String.toList_ofList]
  exact List.mem_append_left _ (List.mem_append_right _ hc)

theorem SizeText.names_of_ascii {t : SizeText} (h : ∀ c ∈ t.text.toList, c.toNat < 0x80) : ∃ k, Names t.unit k := by
  refine t.spelled.resolve_right fun hkelvin => ?_
  obtain ⟨c, hc, hupper⟩ : ∃ c ∈ t.unit, c.toUpper = kelvinSign := by
    refine List.mem_map.mp ?_
    rw [show t.unit.map Char.toUpper = _ from hkelvin]
    exact List.mem_cons_self
  have hascii := h c (SizeText.core_mem (List.mem_append_right _ (List.mem_append_right _ hc)))
  rw [toUpper_eq_kelvinSign_iff.mp hupper] at hascii
  exact absurd hascii (by decide)

theorem isAmount_of_sizeText {t : SizeText} (h : ∀ c ∈ t.text.toList, c.toNat < 0x80) :
    IsAmount (strip t.text.toList) := by
  have hdigit : ∀ c ∈ t.core, isDecimalDigit c = true → c.isDigit = true := fun c hc hdecimal =>
    (isDigit_iff_of_ascii (h c (SizeText.core_mem hc))).mp (isDigit_of_isDecimalDigit hdecimal)
  rw [t.strip_text]
  refine ⟨t.amount.whole, t.amount.tail, t.gap, t.unit, ?_, ⟨t.amount.whole_ne_nil, fun c hc => ?_⟩, ?_, t.gap_blank,
    exists_names_iff.mp (SizeText.names_of_ascii h)⟩
  · unfold SizeText.core Numeral.chars
    rw [List.append_assoc (t.amount.whole ++ t.amount.tail)]
  · exact hdigit c (List.mem_append_left _ (List.mem_append_left _ hc)) (t.amount.whole_digits c hc)
  · by_cases hfraction : t.amount.fraction = []
    · exact .inl (if_pos hfraction)
    · have htail : t.amount.tail = '.' :: t.amount.fraction := if_neg hfraction
      refine .inr ⟨t.amount.fraction, htail, hfraction, fun c hc => ?_⟩
      refine hdigit c (List.mem_append_left _ (List.mem_append_right _ ?_)) (t.amount.fraction_digits c hc)
      rw [htail]
      exact List.mem_cons_of_mem _ hc

theorem exists_sizeText_of_isAmount (h : IsAmount (strip s.toList)) : ∃ t : SizeText, s = t.text := by
  obtain ⟨whole, fraction, gap, unit, hcore, ⟨hne, hwhole⟩, hfraction, hgap, hunit⟩ := h
  obtain ⟨before, after, hs, hbefore, hafter⟩ := exists_stripWhile isBlank s.toList
  obtain ⟨ds, hds, htail⟩ : ∃ ds : List Char, (∀ c ∈ ds, c.isDigit = true) ∧
      fraction = if ds = [] then [] else '.' :: ds := by
    rcases hfraction with rfl | ⟨ds, rfl, hds, hdigits⟩
    · exact ⟨[], List.forall_mem_nil _, rfl⟩
    · exact ⟨ds, hdigits, (if_neg hds).symm⟩
  refine ⟨⟨before, ⟨whole, ds, hne, fun c hc => isDecimalDigit_of_isDigit (hwhole c hc),
    fun c hc => isDecimalDigit_of_isDigit (hds c hc)⟩, gap, unit, after, hbefore, hgap, hafter,
    .inl (exists_names_iff.mpr hunit)⟩, String.toList_inj.mp ?_⟩
  unfold SizeText.text SizeText.core Numeral.chars Numeral.tail
  rw [String.toList_ofList, hs]
  unfold strip at hcore
  rw [hcore, ← htail, List.append_assoc (whole ++ fraction)]

theorem strip_isInfix (s : String) : strip s.toList <:+: s.toList := by
  obtain ⟨before, after, hs, -, -⟩ := exists_stripWhile isBlank s.toList
  exact ⟨before, after, hs.symm⟩

/-- ASCII digits alone, as many as are read, and an amount with a unit stand for a number of bytes, unless that is too
large. -/
theorem parse_of_grammar (hascii : ∀ c ∈ s.toList, c.toNat < 0x80)
    (hruns : ∀ run, run <:+: s.toList → (∀ c ∈ run, c.isDigit = true) → run.length ≤ maxIntegerDigits)
    (hne : strip s.toList ≠ []) (h : (∀ c ∈ strip s.toList, c.isDigit = true) ∨ IsAmount (strip s.toList)) :
    (∃ n, parse (.text s) = .ok (some (.amount n))) ∨ parse (.text s) = .error .infinityToInteger := by
  rcases h with hdigits | hamount
  · have hdecimal : ∀ c ∈ strip s.toList, isDecimalDigit c = true := fun c hc =>
      isDecimalDigit_of_isDigit (hdigits c hc)
    have hall : (strip s.toList).all isDigit = true :=
      List.all_eq_true.mpr fun c hc => isDigit_of_isDecimalDigit (hdecimal c hc)
    refine .inl ⟨numberOf (strip s.toList), ?_⟩
    show parseText s = _
    rw [parseText_allDigits hne hall, readInteger_digits hne hdecimal,
      if_neg (not_lt.mpr (hruns _ (strip_isInfix s) hdigits))]
    rfl
  · obtain ⟨t, rfl⟩ := exists_sizeText_of_isAmount hamount
    obtain ⟨k, hunit⟩ := SizeText.names_of_ascii hascii
    rw [t.parse_text hunit]
    split
    · exact .inr rfl
    · exact .inl ⟨_, rfl⟩

theorem parse_of_other (hascii : ∀ c ∈ s.toList, c.toNat < 0x80) (hne : strip s.toList ≠ [])
    (h : ¬ ((∀ c ∈ strip s.toList, c.isDigit = true) ∨ IsAmount (strip s.toList))) :
    parse (.text s) = .error (.invalidSize (quote s)) := by
  obtain ⟨hdigits, hamount⟩ := not_or.mp h
  refine parseText_other hne (Bool.eq_false_iff.mpr fun hall => hdigits fun c hc => ?_) ?_
  · have hmem := (strip_isInfix s).subset hc
    exact (isDigit_iff_of_ascii (hascii c hmem)).mp (List.all_eq_true.mp hall c hc)
  · rintro t rfl
    exact hamount (isAmount_of_sizeText hascii)

end Ascii

/-- Of the ASCII texts whose runs of digits are short enough to be read, just the blank ones stand for no limit, and
just those that are, without the blanks around them, neither empty nor digits nor an amount with a unit are refused as
malformed. Blanks around a text and the case of its letters do not change its outcome. -/
theorem parser_recognises_sizes {s : String} (hascii : ∀ c ∈ s.toList, c.toNat < 0x80)
    (hruns : ∀ run, run <:+: s.toList → (∀ c ∈ run, c.isDigit = true) → run.length ≤ maxIntegerDigits) :
    (parse (.text s) = .ok none ↔ ∀ c ∈ s.toList, isBlank c = true) ∧
    (outcome s = .error .malformed ↔ ¬ (strip s.toList = [] ∨ (∀ c ∈ strip s.toList, c.isDigit = true) ∨
      IsAmount (strip s.toList))) ∧
    ∀ before t after : List Char, (∀ c ∈ before, isBlank c = true) → (∀ c ∈ after, isBlank c = true) →
      t.map Char.toLower = s.toList.map Char.toLower → outcome (String.ofList (before ++ t ++ after)) = outcome s := by
  have hblank : strip s.toList = [] → parse (.text s) = .ok none := fun h =>
    parseText_blank (stripWhile_eq_nil_iff.mp h)
  have hgrammar := parse_of_grammar hascii hruns
  have hother := parse_of_other hascii
  refine ⟨?_, ?_, fun before t after hbefore hafter ht => outcome_congr ?_⟩
  · rw [← stripWhile_eq_nil_iff]
    refine ⟨fun hparse => by_contra fun hne => ?_, hblank⟩
    by_cases hform : (∀ c ∈ strip s.toList, c.isDigit = true) ∨ IsAmount (strip s.toList)
    · obtain ⟨n, hn⟩ | hlarge := hgrammar hne hform
      · cases hn.symm.trans hparse
      · cases hlarge.symm.trans hparse
    · cases (hother hne hform).symm.trans hparse
  · unfold outcome
    by_cases hne : strip s.toList = []
    · rw [hblank hne]
      exact iff_of_false nofun fun hnot => hnot (.inl hne)
    by_cases hform : (∀ c ∈ strip s.toList, c.isDigit = true) ∨ IsAmount (strip s.toList)
    · refine iff_of_false (fun hfails => ?_) fun hnot => hnot (.inr hform)
      obtain ⟨n, hn⟩ | hlarge := hgrammar hne hform
      · rw [hn] at hfails
        cases hfails
      · rw [hlarge] at hfails
        cases hfails
    · rw [hother hne hform]
      exact iff_of_true rfl (not_or.mpr ⟨hne, hform⟩)
  · unfold strip
    rw [String.toList_ofList, stripWhile_append hbefore hafter, map_stripWhile isBlank_toLower, ht,
      map_stripWhile isBlank_toLower]

/-- A size in small letters is one, and it is the same as in capital ones with a tab before it. -/
theorem small_letters_are_read : parse (.text "1.5 mb") ≠ .ok none ∧ outcome "1.5 mb" ≠ .error .malformed ∧
    outcome "\t1.5 MB" = outcome "1.5 mb" := by
  have hascii : ("1.5 mb".toList.all fun c => c.toNat < 0x80) = true := by decide
  have hblanks : ∀ cs : List Char, (cs.all isBlank) = true → ∀ c ∈ cs, isBlank c = true := fun _ => List.all_eq_true.mp
  have hdigits : ∀ cs : List Char, (cs.all Char.isDigit) = true → ∀ c ∈ cs, c.isDigit = true := fun _ =>
    List.all_eq_true.mp
  obtain ⟨hblank, hrefused, hsame⟩ := parser_recognises_sizes (s := "1.5 mb")
    (fun c hc => of_decide_eq_true (List.all_eq_true.mp hascii c hc))
    (fun run hrun _ => hrun.length_le.trans (by decide))
  have hamount : IsAmount (strip "1.5 mb".toList) :=
    ⟨['1'], ['.', '5'], [' '], ['m', 'b'], by decide, ⟨by decide, hdigits _ (by decide)⟩,
      .inr ⟨['5'], rfl, by decide, hdigits _ (by decide)⟩, hblanks _ (by decide), by decide⟩
  exact ⟨fun h => absurd (hblank.mp h '1' (by decide)) (by decide), fun h => hrefused.mp h (.inr (.inr hamount)),
    hsame ['\t'] "1.5 MB".toList [] (hblanks _ (by decide)) (List.forall_mem_nil _) (by decide)⟩

end Backpressure.DataSize
