import Backpressure.Engine.Site
import Backpressure.Proofs.Calls
import Backpressure.Proofs.Computation

/-!
# Windows of the recorded history

* `Timestamp.Agree` : timestamps that are ordered as the instants that they stand for, `Timestamp.Fixed` : those that
  are so with every other;
* `Chronological` : snapshots whose times increase;
* `History.Added`, `append_spec` : what becomes of a snapshot that is added to others;
* `History.recent` : the newest of the snapshots since a time, `History.fetch_eq_ok` : what a fetch answers with;
* `History.mem_recent_of_append` : as snapshots are added and the time goes on, no snapshot comes back into the window;
* `Site.window` : the points of a metric that a computation is to see, `Site.Answers.points` : they are what the history
  answers with.
-/

namespace Backpressure
open Number Time

/-! ## Timestamps and their instants -/

namespace Time

@[simp] theorem Offset.micros_zero : (0 : Offset).micros = 0 := rfl

namespace Timestamp

variable {s t : Timestamp}

/-- Timestamps that are not told by the clocks of one zone at two offsets. -/
def Agree (s t : Timestamp) : Prop := s.sharesZone t = true → s.offset = t.offset

instance : Decidable (s.Agree t) := inferInstanceAs (Decidable (_ → _))

/-- A timestamp that is not told by the clocks of a zone, but at a fixed offset or at none. -/
def Fixed (t : Timestamp) : Prop := t.offset.bind Offset.zone = none

instance : Decidable t.Fixed := inferInstanceAs (Decidable (_ = _))

theorem Fixed.agree (h : s.Fixed) (t : Timestamp) : s.Agree t := by
  unfold Agree sharesZone
  rw [show s.offset.bind Offset.zone = none from h]
  exact fun hnot => by cases hnot

theorem Agree.precedes_eq (h : s.Agree t) : s.precedes t = decide (s.utcMicros < t.utcMicros) := by
  unfold precedes
  split
  · next hzone =>
    unfold utcMicros
    rw [h hzone]
    exact decide_eq_decide.mpr (by omega)
  · rfl

theorem isBefore_eq_ok {before : Bool} : s.isBefore t = .ok before ↔
    s.offset.isSome = t.offset.isSome ∧ s.precedes t = before := by
  unfold isBefore
  split <;> simp_all

theorem isBefore_eq_error {error : Error} : s.isBefore t = .error error ↔
    ¬ s.offset.isSome = t.offset.isSome ∧ error = .mixedOffsets := by
  unfold isBefore
  split <;> simp_all [eq_comm]

theorem utcMicros_of_offset (h : (t.offset.getD 0).micros = 0) : t.utcMicros = t.wall := by
  unfold utcMicros
  rw [h, Int.sub_zero]

end Timestamp

end Time

/-- Snapshots whose times increase. -/
def Chronological (snapshots : List Snapshot) : Prop :=
  snapshots.Pairwise fun a b => a.timestamp.utcMicros < b.timestamp.utcMicros

namespace History

/-! ## Adding a snapshot -/

section

variable {xs list : List Snapshot} {error : Error}

theorem sorted_eq_ok : sorted xs = .ok list ↔
    comparable xs = true ∧ (xs.mergeSort fun a b => !b.timestamp.precedes a.timestamp) = list := by
  unfold sorted
  split <;> simp_all

theorem sorted_eq_error : sorted xs = .error error ↔ ¬ comparable xs = true ∧ error = .mixedOffsets := by
  unfold sorted
  split
  · next hkind => simp [hkind]
  · next hkind => simp [hkind, eq_comm]

/-- What becomes of a snapshot that is added to others: it is the first one, it stays at the end since it is not before
the last one, all of them are put in order, or it stays at the end with an error. -/
inductive Added (xs : List Snapshot) (s : Snapshot) : Except Error Unit × List Snapshot → Prop
  | first (h : xs = []) : Added xs s (.ok (), xs ++ [s])
  | last {last : Snapshot} (hlast : last ∈ xs.getLast?) (h : s.timestamp.isBefore last.timestamp = .ok false) :
      Added xs s (.ok (), xs ++ [s])
  | placed {last : Snapshot} {list : List Snapshot} (hlast : last ∈ xs.getLast?)
      (h : s.timestamp.isBefore last.timestamp = .ok true) (hsorted : sorted (xs ++ [s]) = .ok list) :
      Added xs s (.ok (), list)
  | kept {last : Snapshot} {error : Error} (hlast : last ∈ xs.getLast?)
      (h : s.timestamp.isBefore last.timestamp = .error error ∨
        s.timestamp.isBefore last.timestamp = .ok true ∧ sorted (xs ++ [s]) = .error error) :
      Added xs s (.error error, xs ++ [s])

theorem append_spec (xs : List Snapshot) (s : Snapshot) : Added xs s (append xs s) := by
  unfold append
  cases hlast : xs.getLast? with
  | none => exact .first (List.getLast?_eq_none_iff.mp hlast)
  | some last =>
    dsimp only
    cases hbefore : s.timestamp.isBefore last.timestamp with
    | error error => exact .kept hlast (.inl hbefore)
    | ok before =>
      cases before with
      | false => exact .last hlast hbefore
      | true =>
        cases hsorted : sorted (xs ++ [s]) with
        | error error => exact .kept hlast (.inr ⟨hbefore, hsorted⟩)
        | ok list => exact .placed hlast hbefore hsorted

end

variable {α : Type}

/-! ## The last elements of a list -/

theorem lastOf_suffix (n : Int) (xs : List α) : lastOf n xs <:+ xs := List.drop_suffix _ _

theorem length_lastOf (n : Int) (xs : List α) : (lastOf n xs).length = min n.toNat xs.length := by
  unfold lastOf
  rw [List.length_drop]
  omega

theorem lastOf_suffix_lastOf {xs ys : List α} (h : xs <:+ ys) (n : Int) : lastOf n xs <:+ lastOf n ys := by
  refine List.suffix_of_suffix_length_le ((lastOf_suffix n xs).trans h) (lastOf_suffix n ys) ?_
  have hle := h.length_le
  rw [length_lastOf, length_lastOf]
  omega

theorem mem_lastOf_of_append {n : Int} {x : α} {xs ys : List α} (h : x ∈ lastOf n (xs ++ ys)) (hx : x ∉ ys) :
    x ∈ lastOf n xs := by
  unfold lastOf at h ⊢
  rw [List.drop_append, List.mem_append, List.length_append] at h
  rcases h with h | h
  · exact List.drop_subset_drop_left xs (by omega) h
  · exact absurd (List.mem_of_mem_drop h) hx

/-! ## The newest snapshots since a time -/

/-- The newest `n` of the snapshots at or after a time. -/
def recent (start n : Int) (snapshots : List Snapshot) : List Snapshot :=
  lastOf n (snapshots.filter fun s => start ≤ s.timestamp.utcMicros)

theorem recent_sublist (start n : Int) (snapshots : List Snapshot) : (recent start n snapshots).Sublist snapshots :=
  (lastOf_suffix n _).sublist.trans List.filter_sublist

/-- Where times increase, the snapshots since a later time are the last of those since an earlier one. -/
theorem filter_suffix_filter {start start' : Int} (hle : start ≤ start') {snapshots : List Snapshot}
    (h : Chronological snapshots) :
    (snapshots.filter fun s => start' ≤ s.timestamp.utcMicros) <:+
      snapshots.filter fun s => start ≤ s.timestamp.utcMicros := by
  induction snapshots with
  | nil => exact List.nil_suffix
  | cons s rest ih =>
    obtain ⟨hfirst, hrest⟩ := List.pairwise_cons.mp h
    by_cases hs : start' ≤ s.timestamp.utcMicros
    · have hall : ∀ a, a ≤ start' → (s :: rest).filter (fun s => a ≤ s.timestamp.utcMicros) = s :: rest := by
        intro a ha
        rw [List.filter_eq_self]
        intro r hr
        rcases List.mem_cons.mp hr with rfl | hr
        · exact decide_eq_true (by omega)
        · have := hfirst r hr
          exact decide_eq_true (by omega)
      exact ⟨[], by rw [List.nil_append, hall start' (Int.le_refl _), hall start hle]⟩
    · rw [List.filter_cons_of_neg (by simpa using hs)]
      refine (ih hrest).trans ?_
      rw [List.filter_cons]
      split
      · exact List.suffix_cons s _
      · exact List.suffix_refl _

/-- As snapshots are added and the time goes on, no snapshot comes back into the window. -/
theorem mem_recent_of_append {start start' n : Int} {old new : List Snapshot} {s : Snapshot}
    (h : Chronological (old ++ new)) (hle : start ≤ start') (hs : s ∈ recent start' n (old ++ new)) (hold : s ∈ old) :
    s ∈ recent start n old := by
  have hnew : s ∉ new := by
    intro hmem
    have := (List.pairwise_append.mp h).2.2 s hold s hmem
    omega
  unfold recent at hs ⊢
  rw [List.filter_append] at hs
  have hmem := mem_lastOf_of_append hs fun hfilter => hnew (List.mem_filter.mp hfilter).1
  have hchron : Chronological old := (List.pairwise_append.mp h).1
  exact (lastOf_suffix_lastOf (filter_suffix_filter hle hchron) n).subset hmem

/-! ## Fetching -/

theorem since_eq_ok {start : Instant} {snapshots result : List Snapshot} :
    since start snapshots = .ok result ↔ (∀ s ∈ snapshots, inRange s.timestamp.utcMicros = true) ∧
      result = snapshots.filter fun s => start.micros ≤ s.timestamp.utcMicros := by
  induction snapshots generalizing result with
  | nil =>
    constructor
    · intro h
      cases h
      exact ⟨fun s hs => absurd hs List.not_mem_nil, rfl⟩
    · rintro ⟨-, rfl⟩
      rfl
  | cons s rest ih =>
    unfold since
    simp only [Except.bind_eq_ok, Timestamp.toInstant_eq_ok, ih, Except.pure_eq_ok, List.forall_mem_cons,
      List.filter_cons, decide_eq_true_eq]
    constructor
    · rintro ⟨_, ⟨hs, rfl⟩, _, ⟨hrest, rfl⟩, rfl⟩
      exact ⟨⟨hs, hrest⟩, rfl⟩
    · rintro ⟨⟨hs, hrest⟩, rfl⟩
      exact ⟨_, ⟨hs, rfl⟩, _, ⟨hrest, rfl⟩, rfl⟩

variable {K : Type} [Scalar K]

/-- The sizes of snapshots are numbers when each of them is. -/
theorem mapM_value_eq_ok {m : Metric} {snapshots : List Snapshot} {values : List K} :
    (snapshots.mapM fun s => numberOfInt (s.value m)) = .ok values ↔
      (∀ s ∈ snapshots, Scalar.isFinite (Arithmetic.ofInt (s.value m) : K) = true) ∧
        values = snapshots.map fun s => Arithmetic.ofInt (s.value m) :=
  mapM_eq_ok_iff (fun _ _ => numberOfInt_eq_ok) snapshots values

/-- What a fetch answers with when it succeeds. -/
theorem fetch_eq_ok {h : History} {id : String} {m : Metric} {w : Lookback} {series : Series K}
    (hfetch : h.fetch id m w = .ok series) :
    let snapshots := recent w.since.utcMicros w.maxPoints (h.of id)
    series = ⟨id, m, snapshots.map (·.timestamp), snapshots.map fun s => Arithmetic.ofInt (s.value m)⟩ ∧
    (∀ s ∈ snapshots, Scalar.isFinite (Arithmetic.ofInt (s.value m) : K) = true) ∧
    ∀ s ∈ h.of id, inRange s.timestamp.utcMicros = true := by
  unfold fetch at hfetch
  simp only [Except.bind_eq_ok, Timestamp.toInstant_eq_ok, since_eq_ok, Except.pure_eq_ok] at hfetch
  obtain ⟨_, ⟨-, rfl⟩, _, ⟨hrange, rfl⟩, values, hvalues, rfl⟩ := hfetch
  obtain ⟨hfinite, rfl⟩ := mapM_value_eq_ok.mp hvalues
  exact ⟨rfl, hfinite, hrange⟩

/-- A connection without history is not an error of a fetch. -/
theorem fetch_eq_error {h : History} {id : String} {m : Metric} {w : Lookback} {e : Error}
    (hfetch : h.fetch (K := K) id m w = .error e) : e = .dateOutOfRange ∨ e = .integerTooLarge := by
  have hinstant : ∀ {t : Timestamp} {e : Error}, t.toInstant = .error e → e = .dateOutOfRange := by
    intro t e ht
    unfold Timestamp.toInstant Instant.ofMicros at ht
    split at ht <;> cases ht
    rfl
  have hsince : ∀ {start : Instant} {snapshots : List Snapshot} {e : Error},
      since start snapshots = .error e → e = .dateOutOfRange := by
    intro start snapshots e hs
    induction snapshots with
    | nil => cases hs
    | cons s rest ih =>
      unfold since at hs
      rcases Except.bind_eq_error.mp hs with hs | ⟨t, -, hs⟩
      · exact hinstant hs
      · rcases Except.bind_eq_error.mp hs with hs | ⟨later, -, hs⟩
        · exact ih hs
        · cases hs
  unfold fetch at hfetch
  rcases Except.bind_eq_error.mp hfetch with hfetch | ⟨start, -, hfetch⟩
  · exact .inl (hinstant hfetch)
  rcases Except.bind_eq_error.mp hfetch with hfetch | ⟨snapshots, -, hfetch⟩
  · exact .inl (hsince hfetch)
  rcases Except.bind_eq_error.mp hfetch with hfetch | ⟨values, -, hfetch⟩
  · obtain ⟨s, -, hs⟩ := exists_of_mapM_eq_error hfetch
    unfold numberOfInt at hs
    dsimp only at hs
    split at hs <;> cases hs
    exact .inr rfl
  · cases hfetch

end History

/-! ## What a computation sees -/

variable {K : Type} [Scalar K]

/-- A snapshot as a point of a metric. -/
def Snapshot.point (m : Metric) (s : Snapshot) : Instant × K := (⟨s.timestamp.utcMicros⟩, Arithmetic.ofInt (s.value m))

namespace Site

/-- The snapshots of a connection that a computation is to see: the newest ones recorded since the lookback began. -/
def recent (s : Site K) (config : EngineConfig K) (id : String) : List Snapshot :=
  History.recent (s.clock.utcMicros - config.lookbackMinutes * microsPerMinute) config.lookbackPoints (s.history.of id)

/-- The points of a metric of a connection that a computation is to see. -/
def window (s : Site K) (config : EngineConfig K) (id : String) (m : Metric) : List (Instant × K) :=
  (s.recent config id).map (Snapshot.point m)

/-- Surroundings that answer from what was recorded, in whatever time they take, and without other faults. -/
structure InMemory (s : Site K) : Prop where
  faults : s.faults = { (Faults.none : Faults K) with held := s.faults.held }
  pinned : s.pinned = Table.empty

theorem InMemory.history {s : Site K} (h : s.InMemory) (id : String) (m : Metric) (w : Lookback) :
    (s.sources.history id m w).answer = s.history.fetch id m w := by
  have hseries : s.series id m w = s.history.fetch id m w := by
    unfold series pinned?
    rw [h.faults, h.pinned]
    cases m <;> rfl
  rw [← hseries]
  unfold sources
  dsimp only
  split <;> rfl

theorem settle_fetch_eq_ok {h : History} {id : String} {m : Metric} {w : Lookback} {series : Series K}
    (hsettle : Entry.settle id m (h.fetch id m w) = .ok series) : h.fetch id m w = .ok series := by
  cases hfetch : h.fetch (K := K) id m w with
  | ok found =>
    rw [hfetch] at hsettle
    exact hsettle
  | error e =>
    rw [hfetch] at hsettle
    rcases History.fetch_eq_error hfetch with rfl | rfl <;> cases hsettle

theorem askHistory_eq_ok {s : Site K} (h : s.InMemory) {config : EngineConfig K} {id : String} {w : Lookback}
    {series : PerMetric (Series K)} (hask : Entry.askHistory s.sources config false id w = .ok series) (m : Metric) :
    s.history.fetch id m w = .ok (series.get m) := by
  have hsettle := (Entry.settled_of_askHistory hask).2.2 m
  rw [h.history] at hsettle
  exact settle_fetch_eq_ok hsettle

/-- Where the history has no answer, that is a failure of the surroundings, unless one cannot wait for it. -/
theorem askHistory_eq_error {s : Site K} (h : s.InMemory) {config : EngineConfig K} {id : String} {w : Lookback}
    {e : Error} (hask : Entry.askHistory s.sources config false id w = .error e) :
    Entry.CannotWait s.sources config id w ∧ e = .clockOverflow ∨
      ¬ Entry.CannotWait s.sources config id w ∧ e.isUpstream = true := by
  have hsettle : ∀ m, Entry.settle id m (s.history.fetch (K := K) id m w) = .error e → e.isUpstream = true := by
    intro m hm
    cases hfetch : s.history.fetch (K := K) id m w with
    | ok found =>
      rw [hfetch] at hm
      cases hm
    | error cause =>
      rw [hfetch] at hm
      rcases History.fetch_eq_error hfetch with rfl | rfl <;> cases hm <;> rfl
  by_cases hwaits : Entry.CannotWait s.sources config id w
  · cases hask.symm.trans (Entry.askHistory_of_cannotWait hwaits)
    exact .inl ⟨hwaits, rfl⟩
  refine .inr ⟨hwaits, ?_⟩
  by_cases hlate : ∃ m, Entry.Late s.sources config id w m
  · obtain ⟨m, hm⟩ := hlate
    cases hask.symm.trans (Entry.askHistory_of_late hwaits hm)
    rfl
  rw [Entry.askHistory_of_inTime ⟨hwaits, fun m hm => hlate ⟨m, hm⟩⟩, h.history, h.history] at hask
  rcases Except.bind_eq_error.mp hask with hbytes | ⟨bytes, -, hask⟩
  · exact hsettle .queuedBytes hbytes
  rcases Except.bind_eq_error.mp hask with hcount | ⟨count, -, hask⟩
  · exact hsettle .queuedCount hcount
  · cases hask

/-- Whether these are the series with which the history answers a computation. -/
def Answers (s : Site K) (config : EngineConfig K) (id : String) (series : PerMetric (Series K)) : Prop :=
  ∃ now start lookback, s.clock.toInstant = .ok now ∧ now.earlier config.lookbackMinutes = .ok start ∧
    Lookback.of start.toTimestamp config.lookbackPoints = .ok lookback ∧
    Entry.askHistory s.sources config false id lookback = .ok series

theorem answers_of_computation {s : Site K} {config : EngineConfig K} {id : String} {previous : Option (Entry K)}
    {entry : Entry K} (c : Entry.Computation s.sources config false id previous entry) : s.Answers config id c.series :=
  ⟨c.now, c.start, c.window, c.now_eq, c.start_eq, c.window_eq, c.series_eq⟩

/-- The points of the series are those that the computation is to see, and a model can learn them. -/
theorem Answers.points {s : Site K} (h : s.InMemory) {config : EngineConfig K} {id : String}
    {series : PerMetric (Series K)} (hanswers : s.Answers config id series) (m : Metric) :
    (series.get m).timestamps.mapM Timestamp.toInstant = .ok ((s.window config id m).map Prod.fst) ∧
      (series.get m).values = (s.window config id m).map Prod.snd ∧
      ∀ p ∈ s.window config id m, inRange p.1.micros = true ∧ Scalar.isFinite p.2 = true := by
  obtain ⟨now, start, lookback, hnow, hstart, hlookback, hask⟩ := hanswers
  have hfetch := History.fetch_eq_ok (askHistory_eq_ok h hask m)
  have hsince : lookback.since.utcMicros = s.clock.utcMicros - config.lookbackMinutes * microsPerMinute ∧
      lookback.maxPoints = config.lookbackPoints := by
    rw [(Lookback.of_eq_ok.mp hlookback).2, Instant.utcMicros_toTimestamp, (Instant.earlier_eq_ok hstart).2,
      (Timestamp.toInstant_eq_ok.mp hnow).2]
    exact ⟨rfl, rfl⟩
  rw [hsince.1, hsince.2] at hfetch
  obtain ⟨hseries, hfinite, hrange⟩ := hfetch
  have hrecent : ∀ snapshot ∈ s.recent config id, inRange snapshot.timestamp.utcMicros = true :=
    fun snapshot hsnapshot => hrange snapshot ((History.recent_sublist _ _ _).subset hsnapshot)
  rw [hseries]
  refine ⟨?_, ?_, fun p hp => ?_⟩
  · have hinstants : ∀ (t : Timestamp) (u : Instant), t.toInstant = .ok u ↔ inRange t.utcMicros ∧ u = ⟨t.utcMicros⟩ :=
      fun t u => Timestamp.toInstant_eq_ok
    refine (mapM_eq_ok_iff hinstants _ _).mpr ⟨fun t ht => ?_, ?_⟩
    · obtain ⟨snapshot, hsnapshot, rfl⟩ := List.mem_map.mp ht
      exact hrecent snapshot hsnapshot
    · rw [window, List.map_map, List.map_map]
      rfl
  · rw [window, List.map_map]
    rfl
  · obtain ⟨snapshot, hsnapshot, rfl⟩ := List.mem_map.mp hp
    exact ⟨hrecent snapshot hsnapshot, hfinite snapshot hsnapshot⟩

/-- Whether a computation here asks the history for these points. -/
def Fetches (s : Site K) (config : EngineConfig K) (id : String) (points : Metric → List (Instant × K)) : Prop :=
  ∃ series, s.Answers config id series ∧
    ∀ m, (series.get m).timestamps.mapM Timestamp.toInstant = .ok ((points m).map Prod.fst) ∧
      (series.get m).values = (points m).map Prod.snd

theorem fetches_window {s : Site K} (h : s.InMemory) {config : EngineConfig K} {id : String}
    {previous : Option (Entry K)} {entry : Entry K} (c : Entry.Computation s.sources config false id previous entry) :
    s.Fetches config id (s.window config id) := by
  refine ⟨c.series, answers_of_computation c, fun m => ?_⟩
  obtain ⟨htimes, hvalues, -⟩ := (answers_of_computation c).points h m
  exact ⟨htimes, hvalues⟩

end Site

end Backpressure
