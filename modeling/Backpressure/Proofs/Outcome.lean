import Backpressure.History

/-!
# Steps that can fail

* `Except.bind_eq_ok` : a sequence of steps succeeds when each of them does, `bind_eq_error` : it fails with the first
  that fails;
* `mapM_eq_ok_iff`, `exists_of_mapM_eq_error` : the same for one step for each element of a list;
* `Timestamp.toInstant_eq_ok`, `Instant.earlier_eq_ok`, `later_eq_ok`, `Lookback.of_eq_ok`, `numberOfInt_eq_ok` : when
  the conversions of a computation succeed, and with what.
-/

namespace Backpressure
open Number Time

namespace Except

variable {ε α β : Type}

theorem bind_eq_ok {x : Except ε α} {f : α → Except ε β} {b : β} :
    x >>= f = .ok b ↔ ∃ a, x = .ok a ∧ f a = .ok b := by
  cases x with
  | error e => simp [bind, Except.bind]
  | ok a => simp [bind, Except.bind]

theorem bind_eq_error {x : Except ε α} {f : α → Except ε β} {e : ε} :
    x >>= f = .error e ↔ x = .error e ∨ ∃ a, x = .ok a ∧ f a = .error e := by
  cases x with
  | error e' => simp [bind, Except.bind]
  | ok a => simp [bind, Except.bind]

theorem map_eq_ok {x : Except ε α} {f : α → β} {b : β} : x.map f = .ok b ↔ ∃ a, x = .ok a ∧ f a = b := by
  cases x with
  | error e => simp [Except.map]
  | ok a => simp [Except.map]

theorem pure_eq_ok {a b : α} : (pure a : Except ε α) = .ok b ↔ a = b := by
  constructor
  · intro h
    exact Except.ok.inj h
  · rintro rfl
    rfl

end Except

/-- Where a step succeeds on the elements with `P` and only there, and as `g`, it maps a list of them by `g`. -/
theorem mapM_eq_ok_iff {ε α β : Type} {f : α → Except ε β} {P : α → Prop} {g : α → β}
    (hf : ∀ x y, f x = .ok y ↔ P x ∧ y = g x) (xs : List α) (ys : List β) :
    xs.mapM f = .ok ys ↔ (∀ x ∈ xs, P x) ∧ ys = xs.map g := by
  induction xs generalizing ys with
  | nil =>
    rw [List.mapM_nil, Except.pure_eq_ok]
    simp [eq_comm]
  | cons x rest ih =>
    rw [List.mapM_cons]
    simp only [Except.bind_eq_ok, hf, ih, Except.pure_eq_ok, List.forall_mem_cons, List.map_cons]
    constructor
    · rintro ⟨_, ⟨hx, rfl⟩, _, ⟨hrest, rfl⟩, rfl⟩
      exact ⟨⟨hx, hrest⟩, rfl⟩
    · rintro ⟨⟨hx, hrest⟩, rfl⟩
      exact ⟨_, ⟨hx, rfl⟩, _, ⟨hrest, rfl⟩, rfl⟩

theorem exists_of_mapM_eq_error {ε α β : Type} {f : α → Except ε β} {xs : List α} {e : ε} (h : xs.mapM f = .error e) :
    ∃ x ∈ xs, f x = .error e := by
  induction xs with
  | nil => cases h
  | cons x rest ih =>
    rw [List.mapM_cons, Except.bind_eq_error] at h
    rcases h with h | ⟨y, -, h⟩
    · exact ⟨x, List.mem_cons_self, h⟩
    · rcases Except.bind_eq_error.mp h with h | ⟨ys, -, h⟩
      · obtain ⟨x', hmem, hx'⟩ := ih h
        exact ⟨x', List.mem_cons_of_mem x hmem, hx'⟩
      · cases h

theorem Time.Instant.ofMicros_eq_ok {micros : Int} {t : Instant} :
    Instant.ofMicros micros = .ok t ↔ inRange micros ∧ t = ⟨micros⟩ := by
  unfold Instant.ofMicros
  split
  · next h => simp [h, eq_comm]
  · next h => simp [h]

theorem Time.Timestamp.toInstant_eq_ok {s : Timestamp} {t : Instant} :
    s.toInstant = .ok t ↔ inRange s.utcMicros ∧ t = ⟨s.utcMicros⟩ := Instant.ofMicros_eq_ok

theorem Time.spanOfMinutes_eq_ok {minutes span : Int} (h : spanOfMinutes minutes = .ok span) :
    span = minutes * microsPerMinute := by
  unfold spanOfMinutes at h
  dsimp only at h
  split at h
  · cases h
  · split at h <;> cases h
    rfl

theorem Time.Instant.earlier_eq_ok {t u : Instant} {minutes : Int} (h : t.earlier minutes = .ok u) :
    inRange u.micros ∧ u.micros = t.micros - minutes * microsPerMinute := by
  obtain ⟨span, hspan, hmicros⟩ := Except.bind_eq_ok.mp h
  obtain ⟨hrange, rfl⟩ := ofMicros_eq_ok.mp hmicros
  rw [spanOfMinutes_eq_ok hspan] at hrange ⊢
  exact ⟨hrange, rfl⟩

theorem Time.Instant.later_eq_ok {t u : Instant} {minutes : Int} (h : t.later minutes = .ok u) :
    inRange u.micros ∧ u.micros = t.micros + minutes * microsPerMinute := by
  obtain ⟨span, hspan, hmicros⟩ := Except.bind_eq_ok.mp h
  obtain ⟨hrange, rfl⟩ := ofMicros_eq_ok.mp hmicros
  rw [spanOfMinutes_eq_ok hspan] at hrange ⊢
  exact ⟨hrange, rfl⟩

theorem Lookback.of_eq_ok {since : Timestamp} {n : Int} {w : Lookback} :
    Lookback.of since n = .ok w ↔ 0 < n ∧ w = ⟨since, n⟩ := by
  unfold Lookback.of
  split
  · next h => simp [Int.not_lt.mpr h]
  · next h => simp [Int.not_le.mp h, eq_comm]

@[simp] theorem Time.Instant.utcMicros_toTimestamp (t : Instant) : t.toTimestamp.utcMicros = t.micros := by
  exact Int.sub_zero t.micros

theorem numberOfInt_eq_ok {K : Type} [Scalar K] {n : Int} {x : K} :
    numberOfInt n = .ok x ↔ Scalar.isFinite (Arithmetic.ofInt n : K) ∧ x = Arithmetic.ofInt n := by
  unfold numberOfInt
  dsimp only
  split
  · next h => simp [h, eq_comm]
  · next h => simp [h]

end Backpressure
