import Mathlib.Data.List.Pairwise
import Backpressure.Proofs.Cache
import Backpressure.Proofs.Windows

/-!
# Two ways of keeping a history

A history is kept in memory, or in a table of a database, which is asked for the newest rows of a connection.

* `SortedByTime`, `byTime` : snapshots by time, `History.append_eq` : a snapshot added to them comes to its place;
* `History.recordAll` : snapshots of many connections recorded one after another, `recordAll_of_naive` : each connection
  comes to hold its own ones, by time;
* `HistoryQuery.Answered` : the rows with which a database answers a query;
* `HistoryRow.toSeries_eq_fetch` : whatever the order of recording, the rows and the memory give the same series.
-/

namespace Backpressure
open Number Time

/-! ## Snapshots by time -/

/-- Snapshots whose times do not decrease. -/
def SortedByTime (snapshots : List Snapshot) : Prop :=
  snapshots.Pairwise fun a b => a.timestamp.utcMicros ≤ b.timestamp.utcMicros

/-- The snapshots by time, those of equal times in their order. -/
def byTime (snapshots : List Snapshot) : List Snapshot :=
  snapshots.mergeSort fun a b => a.timestamp.utcMicros ≤ b.timestamp.utcMicros

theorem byTime_perm (snapshots : List Snapshot) : (byTime snapshots).Perm snapshots := List.mergeSort_perm _ _

theorem time_le_trans (a b c : Snapshot) (hab : decide (a.timestamp.utcMicros ≤ b.timestamp.utcMicros) = true)
    (hbc : decide (b.timestamp.utcMicros ≤ c.timestamp.utcMicros) = true) :
    decide (a.timestamp.utcMicros ≤ c.timestamp.utcMicros) = true := by
  rw [decide_eq_true_eq] at *
  omega

theorem time_le_total (a b : Snapshot) : (decide (a.timestamp.utcMicros ≤ b.timestamp.utcMicros) ||
    decide (b.timestamp.utcMicros ≤ a.timestamp.utcMicros)) = true := by
  rw [Bool.or_eq_true, decide_eq_true_eq, decide_eq_true_eq]
  omega

theorem sortedByTime_byTime (snapshots : List Snapshot) : SortedByTime (byTime snapshots) :=
  (List.pairwise_mergeSort time_le_trans time_le_total snapshots).imp of_decide_eq_true

theorem byTime_of_sorted {snapshots : List Snapshot} (h : SortedByTime snapshots) : byTime snapshots = snapshots :=
  List.mergeSort_of_pairwise (h.imp decide_eq_true)

/-- Snapshots whose times are not told by the clocks of one zone at two offsets. -/
def ClocksAgree (snapshots : List Snapshot) : Prop :=
  ∀ r ∈ snapshots, ∀ s ∈ snapshots, r.timestamp.Agree s.timestamp

theorem ClocksAgree.of_perm {xs ys : List Snapshot} (h : ClocksAgree xs) (hperm : ys.Perm xs) : ClocksAgree ys :=
  fun r hr s hs => h r (hperm.mem_iff.mp hr) s (hperm.mem_iff.mp hs)

theorem ClocksAgree.of_append {xs ys : List Snapshot} (h : ClocksAgree (xs ++ ys)) : ClocksAgree xs :=
  fun r hr s hs => h r (List.mem_append_left _ hr) s (List.mem_append_left _ hs)

namespace History

theorem comparable_iff {snapshots : List Snapshot} :
    comparable snapshots = true ↔ (∀ s ∈ snapshots, s.timestamp.offset.isSome = true) ∨
      ∀ s ∈ snapshots, s.timestamp.offset.isNone = true := by
  rw [comparable, Bool.or_eq_true, List.all_eq_true, List.all_eq_true]

theorem comparable_perm {xs ys : List Snapshot} (h : xs.Perm ys) : comparable xs = comparable ys := by
  unfold comparable
  rw [h.all_eq, h.all_eq]

theorem comparable_cons {s : Snapshot} {rest : List Snapshot} : comparable (s :: rest) = true ↔
    ∀ r ∈ rest, r.timestamp.offset.isSome = s.timestamp.offset.isSome := by
  rw [comparable_iff, List.forall_mem_cons, List.forall_mem_cons]
  cases s.timestamp.offset <;> simp

theorem comparable_concat {snapshots : List Snapshot} {s : Snapshot} : comparable (snapshots ++ [s]) = true ↔
    ∀ r ∈ snapshots, r.timestamp.offset.isSome = s.timestamp.offset.isSome := by
  rw [comparable_perm (List.perm_append_singleton s snapshots), comparable_cons]

/-- Snapshots that can be compared are put in order of time, unless the clocks of a zone were set in between. -/
theorem sorted_eq {snapshots : List Snapshot} (hkind : comparable snapshots = true) (hagree : ClocksAgree snapshots) :
    sorted snapshots = .ok (byTime snapshots) := by
  have hsame := List.map_mergeSort (r := fun a b : Snapshot => !b.timestamp.precedes a.timestamp) (f := id)
    (s := fun a b : Snapshot => decide (a.timestamp.utcMicros ≤ b.timestamp.utcMicros)) fun a ha b hb => by
      rw [(hagree b hb a ha).precedes_eq, ← decide_not]
      exact decide_eq_decide.mpr Int.not_lt
  rw [List.map_id, List.map_id] at hsame
  unfold sorted byTime
  rw [if_pos hkind, hsame]

/-- To add a snapshot whose time can be compared with all others is no error. -/
theorem append_of_comparable {snapshots : List Snapshot} {s : Snapshot} (h : comparable (snapshots ++ [s]) = true) :
    (append snapshots s).1 = .ok () := by
  have hadded := append_spec snapshots s
  generalize append snapshots s = result at hadded
  cases hadded with
  | first => rfl
  | last => rfl
  | placed => rfl
  | kept hlast herror =>
    rw [Timestamp.isBefore_eq_error, sorted_eq_error] at herror
    rcases herror with ⟨hother, -⟩ | ⟨-, hnot, -⟩
    · exact absurd (comparable_concat.mp h _ (List.mem_of_getLast? hlast)).symm hother
    · exact absurd h hnot

/-- A snapshot added to snapshots in order, its time comparable with theirs, comes to its place among them. -/
theorem append_eq {snapshots : List Snapshot} {s : Snapshot} (hkind : comparable (snapshots ++ [s]) = true)
    (hagree : ClocksAgree (snapshots ++ [s])) (h : SortedByTime snapshots) :
    append snapshots s = (.ok (), byTime (snapshots ++ [s])) := by
  have hsorted := sorted_eq hkind hagree
  have hadded := append_spec snapshots s
  have houtcome := append_of_comparable hkind
  generalize append snapshots s = result at hadded houtcome
  cases hadded with
  | first hempty =>
    subst hempty
    exact congrArg (Prod.mk _) (List.mergeSort_singleton s).symm
  | @last last hlast hbefore =>
    have hagree' := hagree s (by simp) last (List.mem_append_left _ (List.mem_of_getLast? hlast))
    rw [Timestamp.isBefore_eq_ok, hagree'.precedes_eq, decide_eq_false_iff_not] at hbefore
    have hall : SortedByTime (snapshots ++ [s]) := by
      refine List.pairwise_append.mpr ⟨h, List.pairwise_singleton _ _, fun a ha b hb => ?_⟩
      rw [List.mem_singleton.mp hb]
      obtain ⟨init, rfl⟩ := List.getLast?_eq_some_iff.mp hlast
      rcases List.mem_append.mp ha with ha | ha
      · have := (List.pairwise_append.mp h).2.2 a ha last (List.mem_singleton.mpr rfl)
        omega
      · rw [List.mem_singleton.mp ha]
        omega
    rw [byTime_of_sorted hall]
  | placed _ _ hlist =>
    cases hsorted.symm.trans hlist
    rfl
  | kept => cases houtcome

theorem record_eq {h : History} {id : String} {s : Snapshot} (hkind : comparable (h.of id ++ [s]) = true)
    (hagree : ClocksAgree (h.of id ++ [s])) (horder : SortedByTime (h.of id)) :
    h.record id s.timestamp (.whole s.bytes) (.whole s.count) =
      (.ok s, ⟨h.snapshots.insert id (byTime (h.of id ++ [s]))⟩) := by
  show ((append (h.of id) s).1.map fun _ => s, (⟨h.snapshots.insert id (append (h.of id) s).2⟩ : History)) = _
  rw [append_eq hkind hagree horder]
  rfl

theorem of_insert (h : History) (id other : String) (snapshots : List Snapshot) :
    (⟨h.snapshots.insert id snapshots⟩ : History).of other = if other = id then snapshots else h.of other := by
  show ((h.snapshots.insert id snapshots).get? other).getD [] = _
  rw [Table.get?_insert]
  split <;> rfl

/-! ## Recording the snapshots of many connections -/

/-- The history with snapshots recorded one after another, up to the first that cannot be. -/
def recordAll (h : History) (snapshots : List (String × Snapshot)) : Except Error History :=
  snapshots.foldlM (fun h r =>
    match h.record r.1 r.2.timestamp (.whole r.2.bytes) (.whole r.2.count) with
    | (.ok _, h') => .ok h'
    | (.error e, _) => .error e) h

end History

/-- The snapshots of a connection among those of many. -/
def snapshotsOf (id : String) (snapshots : List (String × Snapshot)) : List Snapshot :=
  (snapshots.filter fun r => r.1 = id).map Prod.snd

theorem snapshotsOf_cons (id : String) (r : String × Snapshot) (rest : List (String × Snapshot)) :
    snapshotsOf id (r :: rest) = (if r.1 = id then [r.2] else []) ++ snapshotsOf id rest := by
  unfold snapshotsOf
  rw [List.filter_cons]
  by_cases h : r.1 = id <;> simp [h]

theorem mem_snapshotsOf {id : String} {snapshots : List (String × Snapshot)} {s : Snapshot} :
    s ∈ snapshotsOf id snapshots ↔ (id, s) ∈ snapshots := by
  simp [snapshotsOf]

/-- Whether the timestamp of a snapshot has no offset, so that it means UTC. -/
def Snapshot.Naive (s : Snapshot) : Prop := s.timestamp.offset = none

theorem Snapshot.Naive.utcMicros {s : Snapshot} (h : s.Naive) : s.timestamp.utcMicros = s.timestamp.wall := by
  refine Timestamp.utcMicros_of_offset ?_
  rw [h]
  rfl

theorem Snapshot.Naive.timestamp_eq {s : Snapshot} (h : s.Naive) : s.timestamp = ⟨s.timestamp.utcMicros, none⟩ := by
  rw [h.utcMicros]
  exact congrArg (Timestamp.mk s.timestamp.wall) h

theorem Snapshot.Naive.fixed {s : Snapshot} (h : s.Naive) : s.timestamp.Fixed := by
  unfold Timestamp.Fixed
  rw [h]
  rfl

/-- Where no connection has two snapshots of one time, the time of a snapshot tells which it is. -/
theorem eq_of_utcMicros_eq {snapshots : List (String × Snapshot)} (hnaive : ∀ r ∈ snapshots, r.2.Naive)
    (hdistinct : snapshots.Pairwise fun a b => a.1 = b.1 → a.2.timestamp ≠ b.2.timestamp) {id : String} {a b : Snapshot}
    (ha : (id, a) ∈ snapshots) (hb : (id, b) ∈ snapshots) (h : a.timestamp.utcMicros = b.timestamp.utcMicros) :
    a = b := by
  by_contra hne
  have hsymm : Std.Symm fun a b : String × Snapshot => a.1 = b.1 → a.2.timestamp ≠ b.2.timestamp :=
    ⟨fun _ _ h heq => (h heq.symm).symm⟩
  refine hdistinct.forall ha hb (fun heq => hne (Prod.mk.inj heq).2) rfl ?_
  rw [(hnaive _ ha).timestamp_eq, (hnaive _ hb).timestamp_eq, h]

namespace History

theorem comparable_of_naive {snapshots : List Snapshot} (h : ∀ s ∈ snapshots, s.Naive) :
    comparable snapshots = true :=
  comparable_iff.mpr (.inr fun s hs => Option.isNone_iff_eq_none.mpr (h s hs))

/-- Snapshots without offsets can be recorded in any order, and each connection comes to hold its own ones by time. -/
theorem recordAll_of_naive {h : History} {snapshots : List (String × Snapshot)}
    (hold : ∀ id, (∀ s ∈ h.of id, s.Naive) ∧ SortedByTime (h.of id)) (hnaive : ∀ r ∈ snapshots, r.2.Naive) :
    ∃ h', h.recordAll snapshots = .ok h' ∧
      ∀ id, (h'.of id).Perm (h.of id ++ snapshotsOf id snapshots) ∧ SortedByTime (h'.of id) := by
  induction snapshots generalizing h with
  | nil => exact ⟨h, rfl, fun id => ⟨by rw [snapshotsOf]; simp, (hold id).2⟩⟩
  | cons r rest ih =>
    obtain ⟨hr, hrest⟩ := List.forall_mem_cons.mp hnaive
    have hall : ∀ s ∈ h.of r.1 ++ [r.2], s.Naive := by
      intro s hs
      rcases List.mem_append.mp hs with hs | hs
      · exact (hold r.1).1 s hs
      · rw [List.mem_singleton.mp hs]
        exact hr
    have hrecord := record_eq (comparable_of_naive hall) (fun s hs t _ => (hall s hs).fixed.agree t.timestamp)
      (hold r.1).2
    have hnext : ∀ id, (∀ s ∈ History.of ⟨h.snapshots.insert r.1 (byTime (h.of r.1 ++ [r.2]))⟩ id, s.Naive) ∧
        SortedByTime (History.of ⟨h.snapshots.insert r.1 (byTime (h.of r.1 ++ [r.2]))⟩ id) := by
      intro id
      rw [of_insert]
      split
      · exact ⟨fun s hs => hall s ((byTime_perm _).mem_iff.mp hs), sortedByTime_byTime _⟩
      · exact hold id
    obtain ⟨h', hrecordAll, hof⟩ := ih hnext hrest
    refine ⟨h', ?_, fun id => ⟨(hof id).1.trans ?_, (hof id).2⟩⟩
    · rw [recordAll, List.foldlM_cons, hrecord]
      exact hrecordAll
    · rw [of_insert, snapshotsOf_cons, ← List.append_assoc]
      refine List.Perm.append_right _ ?_
      by_cases hid : id = r.1
      · rw [if_pos hid, if_pos hid.symm, hid]
        exact byTime_perm _
      · rw [if_neg hid, if_neg (Ne.symm hid), List.append_nil]

/-- A fetch from times that are dates reads the newest snapshots of the window. -/
theorem fetch_eq {K : Type} [Scalar K] {h : History} {id : String} (m : Metric) {w : Lookback}
    (hsince : inRange w.since.utcMicros = true) (hrange : ∀ s ∈ h.of id, inRange s.timestamp.utcMicros = true) :
    h.fetch (K := K) id m w =
      let snapshots := recent w.since.utcMicros w.maxPoints (h.of id)
      (snapshots.mapM fun s => numberOfInt (s.value m)).map fun values =>
        ⟨id, m, snapshots.map (·.timestamp), values⟩ := by
  have hstart : w.since.toInstant = .ok ⟨w.since.utcMicros⟩ := Timestamp.toInstant_eq_ok.mpr ⟨hsince, rfl⟩
  have hfound : since ⟨w.since.utcMicros⟩ (h.of id) = .ok _ := since_eq_ok.mpr ⟨hrange, rfl⟩
  unfold fetch recent
  rw [hstart]
  dsimp only [bind, Except.bind]
  rw [hfound]
  dsimp only
  cases (lastOf w.maxPoints ((h.of id).filter fun s => w.since.utcMicros ≤ s.timestamp.utcMicros)).mapM
    fun s => (numberOfInt (s.value m) : Except Error K) <;> rfl

end History

/-! ## Rows of a database -/

/-- A snapshot as a row of one column. -/
def Snapshot.row (m : Metric) (s : Snapshot) : HistoryRow := ⟨s.timestamp, .whole (s.value m)⟩

/-- Whether these are rows with which a database answers a query on a table: the newest ones of the connection from the
start on, newest first. -/
def HistoryQuery.Answered (q : HistoryQuery) (table : List (String × Snapshot)) (rows : List HistoryRow) : Prop :=
  ∃ newest : List Snapshot,
    newest.Perm ((snapshotsOf q.connection table).filter fun s => q.start.wall ≤ s.timestamp.wall) ∧
    newest.Pairwise (fun a b => b.timestamp.wall ≤ a.timestamp.wall) ∧
    rows = (newest.take q.limit.toNat).map (Snapshot.row q.column)

namespace HistoryRow

/-- The points of rows with whole numbers are their times, each with its number. -/
theorem mapM_point? (m : Metric) (snapshots : List Snapshot) :
    (snapshots.map (Snapshot.row m)).mapM point? =
      (snapshots.mapM fun s => numberOfInt (s.value m)).map fun values =>
        ((snapshots.map (·.timestamp)).zip values).map some := by
  induction snapshots with
  | nil => rfl
  | cons s rest ih =>
    have hpoint : point? (Snapshot.row m s) = (numberOfInt (s.value m)).map fun v => some (s.timestamp, v) := rfl
    rw [List.map_cons, List.mapM_cons, List.mapM_cons, hpoint, ih]
    cases numberOfInt (K := Float) (s.value m) with
    | error e => rfl
    | ok v => cases rest.mapM fun s => (numberOfInt (s.value m) : Except Error Float) <;> rfl

theorem toSeries_map_row (q : HistoryQuery) (snapshots : List Snapshot) :
    toSeries q (snapshots.map (Snapshot.row q.column)) =
      (snapshots.reverse.mapM fun s => numberOfInt (s.value q.column)).map fun values =>
        ⟨q.connection, q.column, snapshots.reverse.map (·.timestamp), values⟩ := by
  unfold toSeries
  rw [← List.map_reverse, mapM_point?]
  cases hvalues : snapshots.reverse.mapM fun s => (numberOfInt (s.value q.column) : Except Error Float) with
  | error e => rfl
  | ok values =>
    have hlength : values.length = (snapshots.reverse.map (·.timestamp)).length := by
      rw [(History.mapM_value_eq_ok.mp hvalues).2, List.length_map, List.length_map]
    have hpoints : (((snapshots.reverse.map (·.timestamp)).zip values).map some).filterMap id =
        (snapshots.reverse.map (·.timestamp)).zip values := by
      rw [List.filterMap_map]
      exact List.filterMap_some
    show Except.ok (⟨_, _, (List.filterMap id _).map Prod.fst, (List.filterMap id _).map Prod.snd⟩ : Series Float) = _
    rw [hpoints, List.map_fst_zip (Nat.le_of_eq hlength.symm), List.map_snd_zip (Nat.le_of_eq hlength)]
    rfl

/-- A database that answers with the newest rows of a window gives the points that are the newest in memory. -/
theorem reverse_take_eq_recent {newest snapshots : List Snapshot} {start n : Int} (horder : SortedByTime snapshots)
    (hdistinct : ∀ a ∈ snapshots, ∀ b ∈ snapshots, a.timestamp.utcMicros = b.timestamp.utcMicros → a = b)
    (hperm : newest.Perm (snapshots.filter fun s => start ≤ s.timestamp.utcMicros))
    (hnewest : newest.Pairwise fun a b => b.timestamp.utcMicros ≤ a.timestamp.utcMicros) :
    (newest.take n.toNat).reverse = History.recent start n snapshots := by
  have hreverse : newest.reverse = snapshots.filter fun s => start ≤ s.timestamp.utcMicros := by
    refine List.Perm.eq_of_pairwise (fun a b ha hb hab hba => ?_) (List.pairwise_reverse.mpr hnewest)
      (horder.sublist List.filter_sublist) ((List.reverse_perm _).trans hperm)
    have ha' := hperm.mem_iff.mp (List.mem_reverse.mp ha)
    exact hdistinct a (List.mem_filter.mp ha').1 b (List.mem_filter.mp hb).1 (Int.le_antisymm hab hba)
  rw [List.reverse_take, History.recent, History.lastOf, ← hreverse, List.length_reverse]

/-- Whatever the order in which snapshots without offsets are recorded, all of them are. A window in UTC then has the
same outcome in memory as in the rows with which a database answers, a series if the sizes fit a double. -/
theorem toSeries_eq_fetch {table order : List (String × Snapshot)} {rows : List HistoryRow} (id : String) (m : Metric)
    {since : Timestamp} {n : Int} {w : Lookback}
    (hnaive : ∀ r ∈ table, r.2.Naive ∧ inRange r.2.timestamp.wall = true)
    (hdistinct : table.Pairwise fun a b => a.1 = b.1 → a.2.timestamp ≠ b.2.timestamp)
    (horder : order.Perm table)
    (hsince : since.offset.getD 0 = 0 ∧ inRange since.wall = true) (hwindow : Lookback.of since n = .ok w)
    (hrows : (HistoryQuery.of id m w).Answered table rows) :
    ∃ history, History.empty.recordAll order = .ok history ∧
      toSeries (HistoryQuery.of id m w) rows = history.fetch id m w ∧
      ((∀ r ∈ table, r.1 = id → Scalar.isFinite (Arithmetic.ofInt (r.2.value m) : Float) = true) →
        ∃ series, history.fetch (K := Float) id m w = .ok series) := by
  obtain ⟨-, rfl⟩ := Lookback.of_eq_ok.mp hwindow
  have hutc : since.utcMicros = since.wall := by
    refine Timestamp.utcMicros_of_offset ?_
    rw [hsince.1]
    rfl
  have hempty : ∀ id, (∀ s ∈ History.empty.of id, s.Naive) ∧ SortedByTime (History.empty.of id) :=
    fun _ => ⟨fun s hs => absurd hs List.not_mem_nil, List.Pairwise.nil⟩
  obtain ⟨history, hrecord, hof⟩ := History.recordAll_of_naive hempty fun r hr => (hnaive r (horder.mem_iff.mp hr)).1
  have hperm : (history.of id).Perm (snapshotsOf id table) :=
    (hof id).1.trans ((horder.filter _).map _)
  have hmem : ∀ s ∈ history.of id, (id, s) ∈ table := fun s hs => mem_snapshotsOf.mp (hperm.mem_iff.mp hs)
  have hwall : ∀ s ∈ history.of id, s.timestamp.utcMicros = s.timestamp.wall :=
    fun s hs => (hnaive _ (hmem s hs)).1.utcMicros
  have hrange : ∀ s ∈ history.of id, inRange s.timestamp.utcMicros = true := by
    intro s hs
    rw [hwall s hs]
    exact (hnaive _ (hmem s hs)).2
  have hequal : ∀ a ∈ history.of id, ∀ b ∈ history.of id, a.timestamp.utcMicros = b.timestamp.utcMicros → a = b :=
    fun a ha b hb => eq_of_utcMicros_eq (fun r hr => (hnaive r hr).1) hdistinct (hmem a ha) (hmem b hb)
  have hfetch := History.fetch_eq (K := Float) m (w := ⟨since, n⟩) (by rw [hutc]; exact hsince.2) hrange
  refine ⟨history, hrecord, ?_, fun hfits => ?_⟩
  · obtain ⟨newest, hanswer, hdescending, rfl⟩ := hrows
    have hwindow : newest.Perm ((history.of id).filter fun s => since.utcMicros ≤ s.timestamp.utcMicros) := by
      rw [List.filter_congr fun s hs => by rw [hutc, hwall s hs]]
      exact hanswer.trans (hperm.symm.filter _)
    have hnewest : newest.Pairwise fun a b => b.timestamp.utcMicros ≤ a.timestamp.utcMicros := by
      refine hdescending.imp_of_mem fun ha hb hle => ?_
      have ha' := List.mem_filter.mp (hwindow.mem_iff.mp ha)
      have hb' := List.mem_filter.mp (hwindow.mem_iff.mp hb)
      rw [hwall _ ha'.1, hwall _ hb'.1]
      exact hle
    refine (toSeries_map_row (HistoryQuery.of id m ⟨since, n⟩) (newest.take n.toNat)).trans ?_
    rw [reverse_take_eq_recent (hof id).2 hequal hwindow hnewest, hfetch]
    rfl
  · have hfinite : ∀ s ∈ History.recent since.utcMicros n (history.of id),
        Scalar.isFinite (Arithmetic.ofInt (s.value m) : Float) = true :=
      fun s hs => hfits (id, s) (hmem s ((History.recent_sublist since.utcMicros n _).subset hs)) rfl
    rw [hfetch]
    dsimp only
    rw [History.mapM_value_eq_ok.mpr ⟨hfinite, rfl⟩]
    exact ⟨_, rfl⟩

/-- Snapshots of two connections recorded backwards, of which a window holds the newest two of one. -/
theorem toSeries_eq_fetch_orders :
    let table : List (String × Snapshot) :=
      [("orders", ⟨⟨60, none⟩, 10, 1⟩), ("orders", ⟨⟨120, none⟩, 20, 2⟩), ("billing", ⟨⟨120, none⟩, 7, 7⟩),
        ("orders", ⟨⟨180, none⟩, 30, 3⟩)]
    let window : Lookback := ⟨⟨60, some 0⟩, 2⟩
    ∃ history, History.empty.recordAll table.reverse = .ok history ∧
      toSeries (HistoryQuery.of "orders" .queuedBytes window) [⟨⟨180, none⟩, .whole 30⟩, ⟨⟨120, none⟩, .whole 20⟩] =
        history.fetch "orders" .queuedBytes window ∧
      ∃ series, history.fetch (K := Float) "orders" .queuedBytes window = .ok series := by
  intro table window
  have hrows : (HistoryQuery.of "orders" .queuedBytes window).Answered table
      [⟨⟨180, none⟩, .whole 30⟩, ⟨⟨120, none⟩, .whole 20⟩] := by
    let oldest : List Snapshot := [⟨⟨60, none⟩, 10, 1⟩, ⟨⟨120, none⟩, 20, 2⟩, ⟨⟨180, none⟩, 30, 3⟩]
    exact ⟨oldest.reverse, List.reverse_perm oldest, by decide, rfl⟩
  have hnaive : ∀ r ∈ table, r.2.Naive ∧ inRange r.2.timestamp.wall = true := by
    unfold Snapshot.Naive
    decide
  have hsince : Lookback.of ⟨60, some 0⟩ 2 = .ok window := rfl
  obtain ⟨history, hrecord, hseries, hfits⟩ := toSeries_eq_fetch "orders" .queuedBytes hnaive (by decide)
    (List.reverse_perm table) (by decide) hsince hrows
  exact ⟨history, hrecord, hseries, hfits (by decide +kernel)⟩

end HistoryRow

end Backpressure
