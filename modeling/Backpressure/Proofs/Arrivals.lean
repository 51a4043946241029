import Mathlib.Data.List.Induction
import Backpressure.Proofs.Backends
import Backpressure.Proofs.Consistency

/-!
# Snapshots in order of time and in order of arrival

* `StableOrder` : the order of snapshots by time that keeps those of equal times as they arrived, `StableOrder.eq` : there
  is one only, `stableOrder_byTime` : it is how recorded snapshots are kept;
* `Recording` : a call that records the size of a queue, `History.after` : the history after calls, `arrivals` : the
  snapshots of a connection in the order of its calls;
* `uniform` : the snapshots up to the first of another kind, `arranged` : these by time and the others as they arrived;
* `History.after_perm` : a history keeps the snapshots that arrived, `History.of_after` : it keeps them arranged, unless
  the clocks of a zone were set in between;
* `UniformCalls` : calls by which all times of a connection are of one kind, `Series.Window` : the points that a window
  is to show, `History.fetch_is_stable_window` : the windows after such calls;
* `History.recordings_in_order` : which calls fail, what they leave behind, and when a window is in order.
-/

namespace Backpressure
open Number Time

variable {xs ys zs : List Snapshot} {s : Snapshot}

/-! ## The stable order by time -/

/-- Whether `ordered` are the snapshots `arrived` by time, those of equal times as they arrived. -/
structure StableOrder (arrived ordered : List Snapshot) : Prop where
  sorted : SortedByTime ordered
  stable : ∀ t : Int, ordered.filter (·.timestamp.utcMicros = t) = arrived.filter (·.timestamp.utcMicros = t)

namespace StableOrder

theorem filter (h : StableOrder xs ys) (p : Snapshot → Bool) : StableOrder (xs.filter p) (ys.filter p) where
  sorted := h.sorted.sublist List.filter_sublist
  stable t := by rw [List.filter_comm, h.stable, List.filter_comm]

/-- Snapshots by time begin no later than the same snapshots in any other such order. -/
theorem head_le {y z : Snapshot} (h : StableOrder xs (y :: ys)) (h' : StableOrder xs (z :: zs)) :
    y.timestamp.utcMicros ≤ z.timestamp.utcMicros := by
  have hmem : z ∈ (y :: ys).filter (·.timestamp.utcMicros = z.timestamp.utcMicros) := by
    rw [h.stable, ← h'.stable]
    exact List.mem_filter.mpr ⟨List.mem_cons_self, decide_eq_true rfl⟩
  rcases List.mem_cons.mp (List.mem_filter.mp hmem).1 with rfl | hz
  · exact Int.le_refl _
  · exact (List.pairwise_cons.mp h.sorted).1 z hz

theorem nil_eq (h : StableOrder xs []) (h' : StableOrder xs zs) : zs = [] := by
  refine List.eq_nil_iff_forall_not_mem.mpr fun z hz => ?_
  have hmem : z ∈ zs.filter (·.timestamp.utcMicros = z.timestamp.utcMicros) :=
    List.mem_filter.mpr ⟨hz, decide_eq_true rfl⟩
  rw [h'.stable, ← h.stable] at hmem
  exact List.not_mem_nil hmem

/-- The order by time that keeps those of equal times as they arrived is unique. -/
protected theorem eq (h : StableOrder xs ys) (h' : StableOrder xs zs) : ys = zs := by
  induction ys generalizing xs zs with
  | nil => exact (h.nil_eq h').symm
  | cons y ys ih =>
    cases zs with
    | nil => exact h'.nil_eq h
    | cons z zs =>
      -- The first snapshots are of one time, and the first of that time is the one that arrived first.
      have htime : y.timestamp.utcMicros = z.timestamp.utcMicros := Int.le_antisymm (h.head_le h') (h'.head_le h)
      have hfilter : ∀ t : Int, (y :: ys).filter (·.timestamp.utcMicros = t) =
          (z :: zs).filter (·.timestamp.utcMicros = t) := fun t => (h.stable t).trans (h'.stable t).symm
      have hhead : y = z := by
        have hboth := hfilter y.timestamp.utcMicros
        simp only [List.filter_cons, htime, decide_true, if_true, List.cons.injEq] at hboth
        exact hboth.1
      subst hhead
      have htail : StableOrder zs ys := by
        refine ⟨(List.pairwise_cons.mp h.sorted).2, fun t => ?_⟩
        have hboth := hfilter t
        rw [List.filter_cons, List.filter_cons] at hboth
        split at hboth
        · exact (List.cons.inj hboth).2
        · exact hboth
      rw [ih htail ⟨(List.pairwise_cons.mp h'.sorted).2, fun _ => rfl⟩]

end StableOrder

theorem stableOrder_byTime (xs : List Snapshot) : StableOrder xs (byTime xs) where
  sorted := sortedByTime_byTime xs
  stable t := by
    -- Snapshots of one time are in order as they are, so that sorting keeps them as a sublist, and there are as many.
    have hsame : (xs.filter (·.timestamp.utcMicros = t)).Pairwise fun a b =>
        decide (a.timestamp.utcMicros ≤ b.timestamp.utcMicros) = true := by
      refine List.pairwise_of_forall_mem_list fun a ha b hb => decide_eq_true ?_
      have hat := of_decide_eq_true (List.mem_filter.mp ha).2
      have hbt := of_decide_eq_true (List.mem_filter.mp hb).2
      omega
    have hsub : (xs.filter (·.timestamp.utcMicros = t)).Sublist (byTime xs) :=
      List.sublist_mergeSort time_le_trans time_le_total hsame List.filter_sublist
    have hfilter := hsub.filter (·.timestamp.utcMicros = t)
    rw [List.filter_filter, List.filter_congr fun _ _ => Bool.and_self _] at hfilter
    exact (hfilter.eq_of_length ((byTime_perm xs).filter _).length_eq.symm).symm

/-- A snapshot may be added to the snapshots by time as well as to those that arrived. -/
theorem byTime_concat (xs : List Snapshot) (s : Snapshot) : byTime (byTime xs ++ [s]) = byTime (xs ++ [s]) := by
  refine (stableOrder_byTime (byTime xs ++ [s])).eq ⟨sortedByTime_byTime _, fun t => ?_⟩
  rw [(stableOrder_byTime _).stable, List.filter_append, List.filter_append, (stableOrder_byTime xs).stable]

/-! ## Snapshots of one kind -/

/-- The snapshots up to the first whose timestamp is of another kind than those before it: with an offset, or without. -/
def uniform : List Snapshot → List Snapshot
  | [] => []
  | s :: rest => s :: rest.takeWhile fun r => r.timestamp.offset.isSome = s.timestamp.offset.isSome

/-- The snapshots up to the first of another kind by time, and from there on as they arrived. -/
def arranged (snapshots : List Snapshot) : List Snapshot :=
  byTime (uniform snapshots) ++ snapshots.drop (uniform snapshots).length

theorem isPrefix_uniform (xs : List Snapshot) : uniform xs <+: xs := by
  cases xs with
  | nil => exact List.nil_prefix
  | cons s rest => exact List.cons_prefix_cons.mpr ⟨rfl, List.takeWhile_prefix _⟩

theorem arranged_perm (xs : List Snapshot) : (arranged xs).Perm xs := by
  refine ((byTime_perm _).append_right _).trans ?_
  rw [List.prefix_iff_eq_append.mp (isPrefix_uniform xs)]

namespace History

/-- Snapshots can be compared when any two of them can. -/
theorem comparable_iff_forall : comparable xs = true ↔
    ∀ r ∈ xs, ∀ s ∈ xs, r.timestamp.offset.isSome = s.timestamp.offset.isSome := by
  constructor
  · intro h r hr s hs
    rcases comparable_iff.mp h with hall | hall
    · rw [hall r hr, hall s hs]
    · rw [← Option.not_isNone, hall r hr, ← Option.not_isNone, hall s hs]
  · intro h
    cases xs with
    | nil => rfl
    | cons s rest => exact comparable_cons.mpr fun r hr => h r (List.mem_cons_of_mem s hr) s List.mem_cons_self

theorem comparable_of_append (h : comparable (xs ++ ys) = true) : comparable xs = true :=
  comparable_iff_forall.mpr fun r hr s hs =>
    comparable_iff_forall.mp h r (List.mem_append_left _ hr) s (List.mem_append_left _ hs)

end History

open History (comparable)

theorem uniform_of_comparable (h : comparable xs = true) : uniform xs = xs := by
  cases xs with
  | nil => rfl
  | cons s rest =>
    exact congrArg (s :: ·) (List.takeWhile_eq_self_iff.mpr fun r hr => decide_eq_true (History.comparable_cons.mp h r hr))

/-- A snapshot of another kind, or one after such a snapshot, is no longer among those of one kind. -/
theorem uniform_concat (h : ¬ comparable (xs ++ [s]) = true) : uniform (xs ++ [s]) = uniform xs := by
  cases xs with
  | nil => exact absurd (History.comparable_cons.mpr fun r hr => absurd hr List.not_mem_nil) h
  | cons x rest =>
    rw [List.cons_append, History.comparable_cons] at h
    refine congrArg (x :: ·) ?_
    rw [List.append_eq, List.takeWhile_append]
    split
    · next hall =>
      have hrest := List.takeWhile_eq_self_iff.mp ((List.takeWhile_prefix _).eq_of_length hall)
      have hother : ¬ s.timestamp.offset.isSome = x.timestamp.offset.isSome := fun hs => h fun r hr => by
        rcases List.mem_append.mp hr with hr | hr
        · exact of_decide_eq_true (hrest r hr)
        · exact List.mem_singleton.mp hr ▸ hs
      rw [List.takeWhile_cons_of_neg (by simpa using hother), List.append_nil, List.takeWhile_eq_self_iff.mpr hrest]
    · rfl

theorem arranged_of_comparable (h : comparable xs = true) : arranged xs = byTime xs := by
  unfold arranged
  rw [uniform_of_comparable h, List.drop_length, List.append_nil]

theorem arranged_concat (h : ¬ comparable (xs ++ [s]) = true) : arranged (xs ++ [s]) = arranged xs ++ [s] := by
  unfold arranged
  rw [uniform_concat h, List.drop_append_of_le_length (isPrefix_uniform xs).length_le, List.append_assoc]

namespace History

theorem append_perm (xs : List Snapshot) (s : Snapshot) : (append xs s).2.Perm (xs ++ [s]) := by
  have hadded := append_spec xs s
  generalize append xs s = result at hadded
  cases hadded with
  | first => exact .refl _
  | last => exact .refl _
  | placed _ _ hsorted =>
    obtain ⟨-, rfl⟩ := sorted_eq_ok.mp hsorted
    exact List.mergeSort_perm _ _
  | kept => exact .refl _

/-- A second snapshot whose time is before that of the first comes to stand before it. -/
theorem append_of_precedes {r : Snapshot} (hkind : s.timestamp.offset.isSome = r.timestamp.offset.isSome)
    (hbefore : s.timestamp.precedes r.timestamp = true) : append [r] s = (.ok (), [s, r]) := by
  have houtcome : (append [r] s).1 = .ok () :=
    append_of_comparable (comparable_concat.mpr fun t ht => List.mem_singleton.mp ht ▸ hkind.symm)
  have hadded := append_spec [r] s
  generalize append [r] s = result at hadded houtcome
  cases hadded with
  | first hempty => cases hempty
  | last hlast hnot =>
    cases hlast
    cases hbefore.symm.trans (Timestamp.isBefore_eq_ok.mp hnot).2
  | placed _ _ hsorted =>
    obtain ⟨-, rfl⟩ := sorted_eq_ok.mp hsorted
    simp [List.mergeSort, hbefore]
  | kept => cases houtcome

/-- A snapshot added to snapshots of both kinds, or to those of the other kind, stays where it is added. -/
theorem append_of_not_comparable (h : ¬ comparable (xs ++ [s]) = true) :
    (append xs s).2 = xs ++ [s] ∧ ((append xs s).1 = .ok () ∨ (append xs s).1 = .error .mixedOffsets) := by
  have hadded := append_spec xs s
  generalize append xs s = result at hadded
  cases hadded with
  | first => exact ⟨rfl, .inl rfl⟩
  | last => exact ⟨rfl, .inl rfl⟩
  | placed _ _ hsorted => exact absurd (sorted_eq_ok.mp hsorted).1 h
  | kept _ herror =>
    rw [Timestamp.isBefore_eq_error, sorted_eq_error] at herror
    rcases herror with ⟨-, rfl⟩ | ⟨-, -, rfl⟩ <;> exact ⟨rfl, .inr rfl⟩

/-- The first snapshot of another kind cannot be compared with the one before it. -/
theorem append_of_other_kind (hxs : comparable xs = true) (h : ¬ comparable (xs ++ [s]) = true) :
    (append xs s).1 = .error .mixedOffsets := by
  have houtcome := (append_of_not_comparable h).2
  have hadded := append_spec xs s
  generalize append xs s = result at hadded houtcome
  cases hadded with
  | first hempty => exact absurd (comparable_concat.mpr fun r hr => absurd hr (hempty ▸ List.not_mem_nil)) h
  | @last last hlast hbefore =>
    have hsame := (Timestamp.isBefore_eq_ok.mp hbefore).1
    exact absurd (comparable_concat.mpr fun r hr =>
      (comparable_iff_forall.mp hxs r hr last (List.mem_of_getLast? hlast)).trans hsame.symm) h
  | placed _ _ hsorted => exact absurd (sorted_eq_ok.mp hsorted).1 h
  | kept => exact houtcome.resolve_left nofun

/-- Arranged snapshots to which one is added are arranged, whether or not that is an error. -/
theorem append_arranged (hagree : ClocksAgree (xs ++ [s])) : (append (arranged xs) s).2 = arranged (xs ++ [s]) := by
  have hperm : (arranged xs ++ [s]).Perm (xs ++ [s]) := (arranged_perm xs).append_right [s]
  by_cases h : comparable (xs ++ [s]) = true
  · have hxs := arranged_of_comparable (comparable_of_append h)
    rw [append_eq ((comparable_perm hperm).trans h) (hagree.of_perm hperm) (hxs ▸ sortedByTime_byTime xs), hxs,
      byTime_concat, arranged_of_comparable h]
  · rw [(append_of_not_comparable (comparable_perm hperm ▸ h)).1, arranged_concat h]

end History

/-! ## Calls that record -/

/-- A call that records the size of a queue. -/
structure Recording where
  id : String
  timestamp : Timestamp
  bytes : Reading
  count : Reading

/-- The snapshot that a call is to record, if its sizes are numbers. -/
def Recording.snapshot (r : Recording) : Except Error Snapshot := do
  return ⟨r.timestamp, ← r.bytes.toInt, ← r.count.toInt⟩

theorem Recording.timestamp_of_snapshot {r : Recording} (h : r.snapshot = .ok s) : s.timestamp = r.timestamp := by
  obtain ⟨bytes, -, h⟩ := Except.bind_eq_ok.mp h
  obtain ⟨count, -, h⟩ := Except.bind_eq_ok.mp h
  cases h
  rfl

/-- The snapshots of a connection whose sizes are numbers, in the order of the calls that are to record them. -/
def arrivals (id : String) (rs : List Recording) : List Snapshot :=
  rs.filterMap fun r => if r.id = id then r.snapshot.toOption else none

theorem arrivals_append (id : String) (rs later : List Recording) :
    arrivals id (rs ++ later) = arrivals id rs ++ arrivals id later := List.filterMap_append

theorem arrivals_singleton (id : String) (r : Recording) :
    arrivals id [r] = if r.id = id then r.snapshot.toOption.toList else [] := by
  unfold arrivals
  rw [List.filterMap_cons, List.filterMap_nil]
  by_cases h : r.id = id
  · rw [if_pos h, if_pos h]
    cases r.snapshot.toOption <;> rfl
  · rw [if_neg h, if_neg h]

theorem arrivals_concat (id : String) (rs : List Recording) (r : Recording) :
    arrivals id (rs ++ [r]) = arrivals id rs ++ if r.id = id then r.snapshot.toOption.toList else [] := by
  rw [arrivals_append, arrivals_singleton]

theorem mem_arrivals {id : String} {rs : List Recording} :
    s ∈ arrivals id rs ↔ ∃ r ∈ rs, r.id = id ∧ r.snapshot = .ok s := by
  have htoOption (x : Except Error Snapshot) : x.toOption = some s ↔ x = .ok s := by
    cases x <;> simp [Except.toOption]
  unfold arrivals
  simp only [List.mem_filterMap, ite_eq_iff, htoOption, reduceCtorEq, and_false, or_false]

namespace History

variable {h : History} {r : Recording} {rs front back : List Recording} {e : Error} {id : String}

/-- A call that records, its answer and the history after it. -/
def take (h : History) (r : Recording) : Except Error Snapshot × History := h.record r.id r.timestamp r.bytes r.count

/-- The history after calls one after another. -/
def after (h : History) (rs : List Recording) : History := rs.foldl (fun h r => (h.take r).2) h

theorem after_append (h : History) (rs later : List Recording) : h.after (rs ++ later) = (h.after rs).after later :=
  List.foldl_append

theorem after_cons (h : History) (r : Recording) (rs : List Recording) : h.after (r :: rs) = (h.take r).2.after rs := rfl

theorem take_eq (h : History) (r : Recording) : h.take r = match r.snapshot with
    | .error e => (.error e, h)
    | .ok s => ((append (h.of r.id) s).1.map fun _ => s, ⟨h.snapshots.insert r.id (append (h.of r.id) s).2⟩) := rfl

theorem take_of_error (hr : r.snapshot = .error e) : h.take r = (.error e, h) := by
  rw [take_eq, hr]

theorem take_of_ok (hr : r.snapshot = .ok s) : h.take r =
    ((append (h.of r.id) s).1.map fun _ => s, ⟨h.snapshots.insert r.id (append (h.of r.id) s).2⟩) := by
  rw [take_eq, hr]

/-- A call leaves the snapshots of a connection as they are, or adds the one that it is to record. -/
theorem of_take (h : History) (r : Recording) (id : String) :
    (arrivals id [r] = [] ∧ (h.take r).2.of id = h.of id) ∨
      ∃ s, arrivals id [r] = [s] ∧ (h.take r).2.of id = (append (h.of id) s).2 := by
  rw [arrivals_singleton]
  cases hr : r.snapshot with
  | error e =>
    rw [take_of_error hr]
    exact .inl ⟨ite_self [], rfl⟩
  | ok s =>
    rw [take_of_ok hr, of_insert]
    by_cases hid : r.id = id
    · rw [if_pos hid, if_pos hid.symm, hid]
      exact .inr ⟨s, rfl, rfl⟩
    · rw [if_neg hid, if_neg (Ne.symm hid)]
      exact .inl ⟨rfl, rfl⟩

/-- Whatever calls were made, a connection keeps the snapshots that arrived. -/
theorem after_perm (rs : List Recording) (id : String) : ((empty.after rs).of id).Perm (arrivals id rs) := by
  induction rs using List.reverseRecOn with
  | nil => exact .refl _
  | append_singleton rs r ih =>
    rw [after_append, arrivals_append]
    rcases of_take (empty.after rs) r id with ⟨hnone, hsame⟩ | ⟨s, hsome, happend⟩
    · rw [hnone, List.append_nil]
      exact hsame ▸ ih
    · rw [hsome]
      exact happend ▸ (append_perm _ s).trans (ih.append_right [s])

/-- Unless the clocks of a zone were set in between, a connection keeps its snapshots by time up to the first of another
kind, and from there on as they arrived. -/
theorem of_after (hagree : ClocksAgree (arrivals id rs)) : (empty.after rs).of id = arranged (arrivals id rs) := by
  induction rs using List.reverseRecOn with
  | nil => exact ((arranged_of_comparable rfl).trans List.mergeSort_nil).symm
  | append_singleton rs r ih =>
    rw [arrivals_append] at hagree ⊢
    have hbefore := ih hagree.of_append
    rw [after_append]
    rcases of_take (empty.after rs) r id with ⟨hnone, hsame⟩ | ⟨s, hsome, happend⟩
    · rw [hnone, List.append_nil]
      exact hsame.trans hbefore
    · rw [hsome] at hagree ⊢
      exact happend.trans (by rw [hbefore, append_arranged hagree])

/-! ### Calls that fail -/

/-- Whether a snapshot can be compared with those that a connection keeps. -/
theorem comparable_after_concat (rs : List Recording) (id : String) (s : Snapshot) :
    comparable ((empty.after rs).of id ++ [s]) = comparable (arrivals id rs ++ [s]) :=
  comparable_perm ((after_perm rs id).append_right [s])

/-- The answer of a call about times of one kind is the snapshot, unless a size is no number. -/
theorem take_of_comparable (hkind : comparable (arrivals r.id (rs ++ [r])) = true) :
    ((empty.after rs).take r).1 = r.snapshot := by
  cases hr : r.snapshot with
  | error e => rw [take_of_error hr]
  | ok s =>
    rw [arrivals_concat, if_pos rfl, hr] at hkind
    rw [take_of_ok hr, append_of_comparable ((comparable_after_concat rs r.id s).trans hkind)]
    rfl

/-- A call that fails changes nothing if a size is no number. Otherwise its time is of another kind than one before, and
the snapshot is there all the same. -/
theorem take_of_fails (hfails : ((empty.after rs).take r).1 = .error e) :
    (r.snapshot = .error e ∧ ((empty.after rs).take r).2 = empty.after rs) ∨
      (e = .mixedOffsets ∧ ∃ s, r.snapshot = .ok s ∧ ¬ comparable (arrivals r.id rs ++ [s]) = true ∧
        ((empty.after rs).take r).2.of r.id = (empty.after rs).of r.id ++ [s]) := by
  cases hr : r.snapshot with
  | error cause =>
    rw [take_of_error hr] at hfails ⊢
    exact .inl ⟨hfails, rfl⟩
  | ok s =>
    have hkind : ¬ comparable (arrivals r.id rs ++ [s]) = true := by
      intro hkind
      have hanswer : ((empty.after rs).take r).1 = r.snapshot :=
        take_of_comparable (by rwa [arrivals_concat, if_pos rfl, hr])
      rw [hfails, hr] at hanswer
      cases hanswer
    have hkept : ¬ comparable ((empty.after rs).of r.id ++ [s]) = true := by
      rw [comparable_after_concat]
      exact hkind
    obtain ⟨hlist, houtcome⟩ := append_of_not_comparable hkept
    rw [take_of_ok hr] at hfails ⊢
    rw [of_insert, if_pos rfl, hlist]
    rcases houtcome with houtcome | houtcome
    · rw [houtcome] at hfails
      cases hfails
    · rw [houtcome] at hfails
      cases hfails
      exact .inr ⟨rfl, s, rfl, hkind, rfl⟩

/-- Whether each of these calls succeeds, one after another. -/
def AllRecorded (rs : List Recording) : Prop :=
  ∀ front r back, rs = front ++ r :: back → ∃ s, ((empty.after front).take r).1 = .ok s

/-- The first call with a time of another kind fails. -/
theorem take_of_other_kind (hbefore : comparable (arrivals r.id rs) = true)
    (hkind : ¬ comparable (arrivals r.id (rs ++ [r])) = true) : ((empty.after rs).take r).1 = .error .mixedOffsets := by
  rw [arrivals_concat, if_pos rfl] at hkind
  cases hr : r.snapshot with
  | error e =>
    rw [hr] at hkind
    exact absurd ((List.append_nil (arrivals r.id rs)).symm ▸ hbefore) hkind
  | ok s =>
    rw [hr] at hkind
    have hsame : comparable ((empty.after rs).of r.id) = true := (comparable_perm (after_perm rs r.id)).trans hbefore
    have hother : ¬ comparable ((empty.after rs).of r.id ++ [s]) = true := by
      rw [comparable_after_concat]
      exact hkind
    rw [take_of_ok hr, append_of_other_kind hsame hother]
    rfl

/-- Where the times of a connection are not of one kind, one of its calls failed for that. -/
theorem exists_mixed_of_not_comparable (hkind : ¬ comparable (arrivals id rs) = true) :
    ∃ front r back, rs = front ++ r :: back ∧ r.id = id ∧ ((empty.after front).take r).1 = .error .mixedOffsets := by
  induction rs using List.reverseRecOn with
  | nil => exact absurd rfl hkind
  | append_singleton rs r ih =>
    by_cases hbefore : comparable (arrivals id rs) = true
    · by_cases hid : r.id = id
      · subst hid
        exact ⟨rs, r, [], rfl, rfl, take_of_other_kind hbefore hkind⟩
      · rw [arrivals_concat, if_neg hid, List.append_nil] at hkind
        exact absurd hbefore hkind
    · obtain ⟨front, r', back, rfl, hid, hfails⟩ := ih hbefore
      exact ⟨front, r', back ++ [r], by rw [List.append_assoc, List.cons_append], hid, hfails⟩

end History

/-! ## Windows -/

variable {K : Type} [Scalar K]

/-- Snapshots as the points of a series. -/
def Series.ofSnapshots (id : String) (m : Metric) (snapshots : List Snapshot) : Series K :=
  ⟨id, m, snapshots.map (·.timestamp), snapshots.map fun s => Arithmetic.ofInt (s.value m)⟩

theorem Series.ascending_ofSnapshots (id : String) (m : Metric) (h : SortedByTime xs) :
    (Series.ofSnapshots id m xs : Series K).Ascending := List.pairwise_map.mpr h

/-- Whether these are the last `n` points since a time of the snapshots of a connection that arrived, by time and those
of equal times as they arrived. -/
def Series.Window (rs : List Recording) (id : String) (m : Metric) (since : Timestamp) (n : Int) (series : Series K) :
    Prop :=
  ∃ ordered, StableOrder ((arrivals id rs).filter fun s => since.utcMicros ≤ s.timestamp.utcMicros) ordered ∧
    series = Series.ofSnapshots id m (History.lastOf n ordered)

theorem Series.Window.ascending {rs : List Recording} {id : String} {m : Metric} {since : Timestamp} {n : Int}
    {series : Series K} (h : series.Window rs id m since n) : series.Ascending := by
  obtain ⟨ordered, horder, rfl⟩ := h
  exact ascending_ofSnapshots id m (horder.sorted.sublist (History.lastOf_suffix n _).sublist)

/-- Calls by which the times of each connection are all with an offset or all without one, and within the years 1 to 9999
of UTC, and whose sizes fit a number. -/
structure UniformCalls (K : Type) [Scalar K] (rs : List Recording) : Prop where
  oneKind : ∀ id, comparable (arrivals id rs) = true
  inRange : ∀ id, ∀ s ∈ arrivals id rs, inRange s.timestamp.utcMicros = true
  fits : ∀ id, ∀ s ∈ arrivals id rs, ∀ m, Scalar.isFinite (Arithmetic.ofInt (s.value m) : K) = true

namespace UniformCalls

variable {rs : List Recording}

/-- Calls are uniform if any two about one connection have times of one kind, and each has a date and sizes that fit. -/
theorem of_forall (hkind : ∀ r ∈ rs, ∀ r' ∈ rs, r.id = r'.id → r.timestamp.offset.isSome = r'.timestamp.offset.isSome)
    (hrange : ∀ r ∈ rs, Time.inRange r.timestamp.utcMicros = true)
    (hfits : ∀ m, ∀ r ∈ rs, ∀ s ∈ r.snapshot.toOption, Scalar.isFinite (Arithmetic.ofInt (s.value m) : K) = true) :
    UniformCalls K rs where
  oneKind id := by
    refine History.comparable_iff_forall.mpr fun s hs s' hs' => ?_
    obtain ⟨r, hr, hid, hsnapshot⟩ := mem_arrivals.mp hs
    obtain ⟨r', hr', hid', hsnapshot'⟩ := mem_arrivals.mp hs'
    rw [Recording.timestamp_of_snapshot hsnapshot, Recording.timestamp_of_snapshot hsnapshot']
    exact hkind r hr r' hr' (hid.trans hid'.symm)
  inRange id s hs := by
    obtain ⟨r, hr, -, hsnapshot⟩ := mem_arrivals.mp hs
    rw [Recording.timestamp_of_snapshot hsnapshot]
    exact hrange r hr
  fits id s hs m := by
    obtain ⟨r, hr, -, hsnapshot⟩ := mem_arrivals.mp hs
    exact hfits m r hr s (by rw [hsnapshot]; rfl)

theorem of_after (h : UniformCalls K rs) {id : String} (hagree : ClocksAgree (arrivals id rs)) :
    StableOrder (arrivals id rs) ((History.empty.after rs).of id) := by
  rw [History.of_after hagree, arranged_of_comparable (h.oneKind id)]
  exact stableOrder_byTime _

theorem take (h : UniformCalls K rs) {front back : List Recording} {r : Recording} (heq : rs = front ++ r :: back) :
    ((History.empty.after front).take r).1 = r.snapshot := by
  have hkind := h.oneKind r.id
  rw [heq, ← List.singleton_append, ← List.append_assoc, arrivals_append] at hkind
  exact History.take_of_comparable (History.comparable_of_append hkind)

theorem allRecorded (h : UniformCalls K rs) (hsizes : ∀ r ∈ rs, ∃ s, r.snapshot = .ok s) : History.AllRecorded rs := by
  intro front r back heq
  rw [h.take heq]
  exact hsizes r (heq ▸ List.mem_append_right _ List.mem_cons_self)

theorem fetch (h : UniformCalls K rs) (id : String) (m : Metric) {w : Lookback}
    (hsince : Time.inRange w.since.utcMicros = true) : (History.empty.after rs).fetch id m w =
      .ok (Series.ofSnapshots id m (History.recent w.since.utcMicros w.maxPoints ((History.empty.after rs).of id)) :
        Series K) := by
  have hmem : ∀ s ∈ (History.empty.after rs).of id, s ∈ arrivals id rs := fun s hs =>
    (History.after_perm rs id).mem_iff.mp hs
  rw [History.fetch_eq m hsince fun s hs => h.inRange id s (hmem s hs)]
  dsimp only
  rw [History.mapM_value_eq_ok.mpr ⟨fun s hs => h.fits id s (hmem s ((History.recent_sublist _ _ _).subset hs)) m, rfl⟩]
  rfl

end UniformCalls

namespace History

theorem fetch_of_since_out_of_range (h : History) (id : String) (m : Metric) {w : Lookback}
    (hsince : inRange w.since.utcMicros = false) : h.fetch (K := K) id m w = .error .dateOutOfRange := by
  have hstart : w.since.toInstant = .error .dateOutOfRange := if_neg (Bool.eq_false_iff.mp hsince)
  unfold fetch
  rw [hstart]
  rfl

/-- Where the times of each connection are of one kind and are dates, and the sizes fit, no call fails but for a size that
is no number. A window from a date is then answered, and unless the clocks of a zone were set between the times of the
connection, with its last points since that date, by time and those of equal times as they were recorded. A window from
outside the years 1 to 9999 is an error. -/
theorem fetch_is_stable_window {rs : List Recording} (h : UniformCalls K rs) :
    (∀ front r back, rs = front ++ r :: back → ((empty.after front).take r).1 = r.snapshot) ∧
    ∀ id m since n w, Lookback.of since n = .ok w →
      (inRange since.utcMicros = true → ∃ series : Series K, (empty.after rs).fetch id m w = .ok series ∧
        (ClocksAgree (arrivals id rs) → series.Window rs id m since n ∧ series.Ascending)) ∧
      (inRange since.utcMicros = false → (empty.after rs).fetch (K := K) id m w = .error .dateOutOfRange) := by
  refine ⟨fun front r back heq => h.take heq, fun id m since n w hwindow => ?_⟩
  obtain ⟨-, rfl⟩ := Lookback.of_eq_ok.mp hwindow
  refine ⟨fun hsince => ⟨_, h.fetch id m hsince, fun hagree => ?_⟩, fun hsince =>
    fetch_of_since_out_of_range _ id m hsince⟩
  have horder := (h.of_after hagree).filter fun s => since.utcMicros ≤ s.timestamp.utcMicros
  have hshown : (Series.ofSnapshots id m (recent since.utcMicros n ((empty.after rs).of id)) : Series K).Window
      rs id m since n := ⟨_, horder, rfl⟩
  exact ⟨hshown, hshown.ascending⟩

/-- Three sizes of one queue, two of them of one time but written with different offsets, and one size of another queue.
The window of two points leaves out the one of the equal times that was recorded first. -/
theorem fetch_keeps_order_of_equal_times :
    let rs : List Recording :=
      [⟨"orders", ⟨120, some 0⟩, .whole 30, .whole 3⟩, ⟨"billing", ⟨90, none⟩, .whole 7, .whole 7⟩,
        ⟨"orders", ⟨60000060, some (.ofMinutes 1)⟩, .whole 10, .whole 1⟩, ⟨"orders", ⟨60, some 0⟩, .whole 20, .whole 2⟩]
    UniformCalls Float rs ∧ ClocksAgree (arrivals "orders" rs) ∧
      (empty.after rs).fetch "orders" .queuedBytes ⟨⟨60, none⟩, 2⟩ =
        .ok (⟨"orders", .queuedBytes, [⟨60, some 0⟩, ⟨120, some 0⟩], [20, 30]⟩ : Series Float) := by
  intro rs
  have hrs : UniformCalls Float rs := by
    refine .of_forall ?_ ?_ fun m => ?_
    · decide
    · decide
    · cases m <;> decide +kernel
  have horders : arrivals "orders" rs =
      [⟨⟨120, some 0⟩, 30, 3⟩, ⟨⟨60000060, some (.ofMinutes 1)⟩, 10, 1⟩, ⟨⟨60, some 0⟩, 20, 2⟩] := by decide
  have hagree : ClocksAgree (arrivals "orders" rs) := by
    rw [horders]
    unfold ClocksAgree
    decide
  obtain ⟨series, hfetch, hwindow⟩ :=
    ((fetch_is_stable_window hrs).2 "orders" .queuedBytes ⟨60, none⟩ 2 ⟨⟨60, none⟩, 2⟩ rfl).1 (by decide)
  obtain ⟨ordered, horder, rfl⟩ := (hwindow hagree).1
  have hordered : ordered =
      [⟨⟨60000060, some (.ofMinutes 1)⟩, 10, 1⟩, ⟨⟨60, some 0⟩, 20, 2⟩, ⟨⟨120, some 0⟩, 30, 3⟩] := by
    refine horder.eq ⟨by unfold SortedByTime; decide, fun t => ?_⟩
    rw [horders]
    by_cases hfirst : (60 : Int) = t
    · subst hfirst
      decide
    · by_cases hlast : (120 : Int) = t
      · subst hlast
        decide
      · simp [Timestamp.utcMicros, Offset.ofMinutes, microsPerMinute, hfirst, hlast]
  refine ⟨hrs, hagree, ?_⟩
  rw [hfetch, hordered]
  decide +kernel

/-- Two sizes of a queue, and a window since midnight of the first day of year 1 five hours east of UTC, which is before
year 1 in UTC: it does not show them. Two sizes recorded in Madrid while the clocks are set back, at half past two and,
forty minutes later, at ten past two: the window shows the later one first. -/
theorem fetch_needs_dates_and_clocks :
    let noon : Int := 63839707200000000
    let madrid (minutes : Int) : Option Offset := some ⟨minutes * microsPerMinute, some "Europe/Madrid"⟩
    let halfPastTwo : Timestamp := ⟨63865593000000000, madrid 120⟩
    let tenPastTwo : Timestamp := ⟨63865591800000000, madrid 60⟩
    let winter : List Recording := [⟨"orders", ⟨noon, some 0⟩, .whole 1, .whole 1⟩,
      ⟨"orders", ⟨noon + microsPerMinute, some 0⟩, .whole 2, .whole 2⟩]
    let autumn : List Recording := [⟨"orders", halfPastTwo, .whole 1, .whole 1⟩,
      ⟨"orders", tenPastTwo, .whole 2, .whole 2⟩]
    let shown : Series Float := ⟨"orders", .queuedBytes, [tenPastTwo, halfPastTwo], [2, 1]⟩
    (UniformCalls Float winter ∧ AllRecorded winter ∧
      (empty.after winter).fetch (K := Float) "orders" .queuedBytes ⟨⟨0, some (.ofMinutes 300)⟩, 100⟩ =
        .error .dateOutOfRange) ∧
    UniformCalls Float autumn ∧ AllRecorded autumn ∧
      (empty.after autumn).fetch "orders" .queuedBytes ⟨⟨0, some 0⟩, 100⟩ = .ok shown ∧ ¬ shown.Ascending := by
  intro noon madrid halfPastTwo tenPastTwo winter autumn shown
  have hwinter : UniformCalls Float winter := by
    refine .of_forall ?_ ?_ fun m => ?_
    · decide
    · decide
    · cases m <;> decide +kernel
  have hautumn : UniformCalls Float autumn := by
    refine .of_forall ?_ ?_ fun m => ?_
    · decide
    · decide
    · cases m <;> decide +kernel
  have hsizes : ∀ r ∈ winter ++ autumn, ∃ s, r.snapshot = .ok s := by
    simp only [winter, autumn, List.mem_append, List.mem_cons, List.not_mem_nil, or_false]
    rintro r ((rfl | rfl) | rfl | rfl) <;> exact ⟨_, rfl⟩
  refine ⟨⟨hwinter, hwinter.allRecorded fun r hr => hsizes r (List.mem_append_left _ hr),
    fetch_of_since_out_of_range _ _ _ (by decide)⟩, hautumn,
    hautumn.allRecorded fun r hr => hsizes r (List.mem_append_right _ hr), ?_, ?_⟩
  · have hkept : (empty.after autumn).of "orders" = [⟨tenPastTwo, 2, 2⟩, ⟨halfPastTwo, 1, 1⟩] := by
      show (append [⟨halfPastTwo, 1, 1⟩] ⟨tenPastTwo, 2, 2⟩).2 = _
      rw [append_of_precedes (by decide) (by decide)]
    rw [hautumn.fetch "orders" .queuedBytes (by decide), hkept]
    decide +kernel
  · unfold Series.Ascending
    decide

variable (K)

/-- Whatever calls are made, one that fails for a size that is no number is as if it had not been made. One can fail
otherwise only if the times of its connection are not of one kind, and its snapshot is there all the same, at the end. A
window is one of the snapshots that arrived. Unless the clocks of a zone were set between the times of the connection,
it shows them by time up to the first of another kind and then as they were recorded, and is in order if no call about
the connection failed for the times. -/
theorem recordings_in_order (rs : List Recording) :
    (∀ r e, ((empty.after rs).take r).1 = .error e →
      (r.snapshot = .error e ∧ ∀ later, empty.after (rs ++ r :: later) = empty.after (rs ++ later)) ∨
      (e = .mixedOffsets ∧ ∃ s, r.snapshot = .ok s ∧ ¬ comparable (arrivals r.id rs ++ [s]) = true ∧
        ((empty.after rs).take r).2.of r.id = (empty.after rs).of r.id ++ [s])) ∧
    ∀ id m w series, (empty.after rs).fetch (K := K) id m w = .ok series →
      ∃ kept, kept.Perm (arrivals id rs) ∧
        series = Series.ofSnapshots id m (recent w.since.utcMicros w.maxPoints kept) ∧
        (ClocksAgree (arrivals id rs) → kept = arranged (arrivals id rs) ∧
          ((∀ front r back, rs = front ++ r :: back → r.id = id →
            ((empty.after front).take r).1 ≠ .error .mixedOffsets) → series.Ascending)) := by
  refine ⟨fun r e hfails => ?_, fun id m w series hfetch => ?_⟩
  · rcases take_of_fails hfails with ⟨hsnapshot, hsame⟩ | hmixed
    · refine .inl ⟨hsnapshot, fun later => ?_⟩
      rw [after_append, after_append, after_cons, hsame]
    · exact .inr hmixed
  · obtain ⟨rfl, -, -⟩ := fetch_eq_ok hfetch
    refine ⟨_, after_perm rs id, rfl, fun hagree => ⟨of_after hagree, fun hcalls => ?_⟩⟩
    have hkind : comparable (arrivals id rs) = true := by
      by_contra hkind
      obtain ⟨front, r, back, heq, hid, hfails⟩ := exists_mixed_of_not_comparable hkind
      exact hcalls front r back heq hid hfails
    have hsorted : SortedByTime ((empty.after rs).of id) := by
      rw [of_after hagree, arranged_of_comparable hkind]
      exact sortedByTime_byTime _
    exact Series.ascending_ofSnapshots id m (hsorted.sublist (recent_sublist _ _ _))

/-- A size recorded with an offset, and then one without an offset and of an earlier time: the second call fails, and the
window shows both sizes in the order in which they were recorded. -/
theorem mixed_recording_is_kept :
    let first : Recording := ⟨"orders", ⟨120, some 0⟩, .whole 1, .whole 1⟩
    let second : Recording := ⟨"orders", ⟨60, none⟩, .whole 2, .whole 2⟩
    let series : Series Float := ⟨"orders", .queuedBytes, [⟨120, some 0⟩, ⟨60, none⟩], [1, 2]⟩
    ((empty.after [first]).take second).1 = .error .mixedOffsets ∧
      (empty.after [first, second]).fetch "orders" .queuedBytes ⟨⟨0, some 0⟩, 100⟩ = .ok series ∧ ¬ series.Ascending := by
  intro first second series
  have hfails : ((empty.after [first]).take second).1 = .error .mixedOffsets := by decide
  have hof : (empty.after [first, second]).of "orders" = [⟨⟨120, some 0⟩, 1, 1⟩, ⟨⟨60, none⟩, 2, 2⟩] := by
    rcases (recordings_in_order Float [first]).1 second .mixedOffsets hfails with
      ⟨hsnapshot, -⟩ | ⟨-, s, hsnapshot, -, hkept⟩
    · cases hsnapshot
    · cases hsnapshot
      exact hkept
  refine ⟨hfails, ?_, ?_⟩
  · rw [fetch_eq .queuedBytes (by decide) (by rw [hof]; decide), hof]
    decide +kernel
  · unfold Series.Ascending
    decide

end History

end Backpressure
