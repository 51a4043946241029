import Backpressure.Thresholds
import Backpressure.Proofs.Sizes

/-!
# Thresholds from rows of the connections table

* `DataSize.Escapes` : the sizes that fail, though they are written as sizes are, and how they do;
* `DataSize.escapes_iff` : no other text fails in a way that a row does not allow for;
* `ThresholdRow.resolve_fails_iff`, `ThresholdRow.resolve_of_not_escapes` : the rows that fail, and the thresholds of the
  others;
* `ThresholdRow.rows_resolve_unless_sizes_escape` : both together.
-/

namespace Backpressure

namespace DataSize
open Number Binary64 Text

/-- The failures of sizes that are not malformed: a kilobyte is spelled with the Kelvin sign, or the bytes are too many
for a double. -/
def Escapes (s : String) (error : Error) : Prop :=
  ∃ t : SizeText, s = t.text ∧
    (IsKelvin t.unit ∧ error = .unknownUnit (String.ofList [kelvinSign, 'B']) ∨
      ∃ k, Names t.unit k ∧ overflow ≤ t.amount.value * 1024 ^ k ∧ error = .infinityToInteger)

theorem isMalformed_of_readInteger {s : String} {error : Error} (h : readInteger s = .error error) :
    isMalformed error = true := by
  unfold readInteger at h
  dsimp only at h
  split at h
  · cases h
    rfl
  · split at h
    · cases h
      rfl
    · cases h

/-- A text is blank, digits alone, an amount with a unit or none of them. -/
theorem parse_text_cases (s : String) : parse (.text s) = .ok none ∨
    parse (.text s) = (readInteger (String.ofList (strip s.toList))).map (fun n => some (.amount n)) ∨
    (∃ t : SizeText, s = t.text) ∨ parse (.text s) = .error (.invalidSize (quote s)) := by
  by_cases hblank : strip s.toList = []
  · exact .inl (parseText_blank (stripWhile_eq_nil_iff.mp hblank))
  by_cases hall : (strip s.toList).all isDigit = true
  · exact .inr (.inl (parseText_allDigits hblank hall))
  by_cases hsize : ∃ t : SizeText, s = t.text
  · exact .inr (.inr (.inl hsize))
  · exact .inr (.inr (.inr (parseText_other hblank (Bool.eq_false_iff.mpr hall) fun t ht => hsize ⟨t, ht⟩)))

theorem Escapes.parse_text {s : String} {error : Error} (h : Escapes s error) : parse (.text s) = .error error := by
  obtain ⟨t, rfl, ⟨hkelvin, rfl⟩ | ⟨k, hunit, hlarge, rfl⟩⟩ := h
  · show parseText t.text = _
    rw [t.parseText_text, bytesOf_kelvin t.amount hkelvin]
    rfl
  · rw [t.parse_text hunit, if_pos hlarge]

theorem Escapes.not_isMalformed {s : String} {error : Error} (h : Escapes s error) : isMalformed error = false := by
  obtain ⟨t, rfl, ⟨-, rfl⟩ | ⟨k, -, -, rfl⟩⟩ := h <;> rfl

theorem escapes_of_sizeText {t : SizeText} {error : Error} (h : parse (.text t.text) = .error error) :
    Escapes t.text error := by
  refine ⟨t, rfl, ?_⟩
  rcases t.spelled with ⟨k, hunit⟩ | hkelvin
  · rw [t.parse_text hunit] at h
    split at h
    · next hlarge =>
      cases h
      exact .inr ⟨k, hunit, hlarge, rfl⟩
    · cases h
  · replace h : parseText t.text = .error error := h
    rw [t.parseText_text, bytesOf_kelvin t.amount hkelvin] at h
    cases h
    exact .inl ⟨hkelvin, rfl⟩

/-- Every other failure says that the text is malformed. -/
theorem escapes_iff {s : String} {error : Error} :
    parse (.text s) = .error error ∧ isMalformed error = false ↔ Escapes s error := by
  refine ⟨fun ⟨hparse, herror⟩ => ?_, fun h => ⟨h.parse_text, h.not_isMalformed⟩⟩
  rcases parse_text_cases s with hblank | hdigits | ⟨t, rfl⟩ | hother
  · rw [hblank] at hparse
    cases hparse
  · rw [hdigits] at hparse
    cases hread : readInteger (String.ofList (strip s.toList)) with
    | ok n =>
      rw [hread] at hparse
      cases hparse
    | error e =>
      rw [hread] at hparse
      cases hparse
      rw [isMalformed_of_readInteger hread] at herror
      cases herror
  · exact escapes_of_sizeText hparse
  · rw [hother] at hparse
    cases hparse
    cases herror

end DataSize

namespace ThresholdRow
open DataSize

/-- The row of a size as a text and a number of objects, each of them absent or not. -/
def ofCells (size : Option String) (objects : Option Int) : ThresholdRow :=
  ⟨size.elim .missing .text, objects.elim .missing .whole⟩

section Cells

variable (id : String) {size : Option String} (objects : Option Int)

theorem resolve_of_parse {limit : Option Limit} (h : parse (ofCells size objects).size = .ok limit) :
    resolve id (some (ofCells size objects)) = .ok ⟨limit, objects.map .amount⟩ := by
  unfold resolve toThresholds
  dsimp only
  rw [h]
  cases objects <;> rfl

theorem resolve_of_fails {error : Error} (h : parse (ofCells size objects).size = .error error) :
    resolve id (some (ofCells size objects)) =
      if isMalformed error then .ok ⟨none, objects.map .amount⟩ else .error error := by
  unfold resolve toThresholds
  dsimp only
  rw [h]
  dsimp only
  split
  · cases objects <;> rfl
  · rfl

theorem escapes_of_fails {error : Error} (h : parse (ofCells size objects).size = .error error)
    (herror : isMalformed error = false) : ∃ s, size = some s ∧ Escapes s error := by
  cases size with
  | none => cases h
  | some s => exact ⟨s, rfl, escapes_iff.mp ⟨h, herror⟩⟩

/-- The rows that fail are those whose size escapes. -/
theorem resolve_fails_iff {error : Error} : resolve id (some (ofCells size objects)) = .error error ↔
    ∃ s, size = some s ∧ Escapes s error := by
  constructor
  · intro h
    cases hparse : parse (ofCells size objects).size with
    | ok limit =>
      rw [resolve_of_parse id objects hparse] at h
      cases h
    | error e =>
      rw [resolve_of_fails id objects hparse] at h
      split at h
      · cases h
      · next herror =>
        cases h
        exact escapes_of_fails objects hparse (Bool.eq_false_iff.mpr herror)
  · rintro ⟨s, rfl, hs⟩
    have hfails : parse (ofCells (some s) objects).size = .error error := hs.parse_text
    rw [resolve_of_fails id objects hfails, hs.not_isMalformed]
    rfl

theorem resolve_of_not_escapes (h : ∀ s, size = some s → ∀ error, ¬ Escapes s error) :
    resolve id (some (ofCells size objects)) =
      .ok ⟨(parse (ofCells size objects).size).toOption.join, objects.map .amount⟩ := by
  cases hparse : parse (ofCells size objects).size with
  | ok limit => exact resolve_of_parse id objects hparse
  | error e =>
    have hmalformed : isMalformed e = true := by
      by_contra herror
      obtain ⟨s, hs, hescape⟩ := escapes_of_fails objects hparse (Bool.eq_false_iff.mpr herror)
      exact h s hs e hescape
    rw [resolve_of_fails id objects hparse, if_pos hmalformed]
    rfl

end Cells

/-- A row has thresholds unless its size escapes, whatever else its cells hold: the bytes are those of a well-formed
size and absent otherwise, and the number of objects does not depend on the size. -/
theorem rows_resolve_unless_sizes_escape (id : String) (size : Option String) (objects : Option Int) :
    (∀ error, resolve id (some (ofCells size objects)) = .error error ↔ ∃ s, size = some s ∧ Escapes s error) ∧
    ((∀ s, size = some s → ∀ error, ¬ Escapes s error) →
      resolve id (some (ofCells size objects)) =
        .ok ⟨(parse (ofCells size objects).size).toOption.join, objects.map .amount⟩) ∧
    ∀ s error, parse (.text s) = .error error ∧ isMalformed error = false ↔ Escapes s error :=
  ⟨fun _ => resolve_fails_iff id objects, resolve_of_not_escapes id objects, fun _ _ => escapes_iff⟩

/-- A kilobyte spelled with the Kelvin sign fails the whole row; a size in words is passed over. -/
theorem kelvin_size_fails_row :
    resolve "orders" (some (ofCells (some (String.ofList ['1', ' ', kelvinSign, 'B'])) (some 5))) =
        .error (.unknownUnit (String.ofList [kelvinSign, 'B'])) ∧
      resolve "orders" (some (ofCells (some "ten gigs") (some 5))) = .ok ⟨none, some (.amount 5)⟩ := by
  obtain ⟨hfails, -, -⟩ :=
    rows_resolve_unless_sizes_escape "orders" (some (String.ofList ['1', ' ', kelvinSign, 'B'])) (some 5)
  obtain ⟨-, hresolves, hescapes⟩ := rows_resolve_unless_sizes_escape "orders" (some "ten gigs") (some 5)
  have hkelvin : IsKelvin [kelvinSign, 'B'] := by
    unfold IsKelvin
    decide
  have hdigits : ∀ c ∈ ['1'], Text.isDecimalDigit c = true := List.all_eq_true.mp (by decide)
  have hblank : ∀ c ∈ [' '], Text.isBlank c = true := List.all_eq_true.mp (by decide)
  refine ⟨(hfails _).mpr ⟨_, rfl, ⟨[], .ofDigits ['1'] (by decide) hdigits, [' '], [kelvinSign, 'B'], [],
    List.forall_mem_nil _, hblank, List.forall_mem_nil _, .inr hkelvin⟩, rfl, .inl ⟨hkelvin, rfl⟩⟩, hresolves ?_⟩
  intro s hs error hescape
  cases hs
  obtain ⟨hparse, herror⟩ := (hescapes _ error).mpr hescape
  have hmalformed : parse (.text "ten gigs") = .error (.invalidSize (Text.quote "ten gigs")) := by rfl
  rw [hmalformed] at hparse
  cases hparse
  cases herror

end ThresholdRow

end Backpressure
