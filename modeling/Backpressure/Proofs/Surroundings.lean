import Backpressure.Engine.Site
import Backpressure.Proofs.Facets
import Backpressure.Proofs.Recording

/-!
# Surroundings that hold the same of one metric

* `Snapshot.facet` : a recorded size in one metric, `History.AlikeIn` : histories that hold the same sizes in it,
  `History.AlikeIn.fetch` : a window shows no more of a metric than that, `AlikeIn.record` : recording keeps it;
* `Site.AlikeIn` : surroundings kept in memory that hold the same of one metric, `AlikeIn.sources` : they answer alike
  about it;
* `Site.AlikeIn.register`, `record` : they stay so as limits and sizes come in that differ in the other metric only.
-/

namespace Backpressure
open Number Time Trend

/-- The size of a queue at one time, in one metric. -/
def Snapshot.facet (m : Metric) (s : Snapshot) : Timestamp × Int := (s.timestamp, s.value m)

namespace Except

variable {ε α β γ : Type}

theorem map_bind (x : Except ε α) (g : α → Except ε β) (f : β → γ) :
    (x >>= g).map f = x >>= fun a => (g a).map f := by
  cases x <;> rfl

/-- Steps that see no more of a result than its image go on alike from results with one image. -/
theorem bind_congr_of_map {x y : Except ε α} {f : α → β} (h : x.map f = y.map f) {g g' : α → Except ε γ}
    (hg : ∀ a b, f a = f b → g a = g' b) : x >>= g = y >>= g' := by
  rcases Except.cases_of_map_eq h with ⟨e, rfl, rfl⟩ | ⟨a, b, rfl, rfl, hab⟩
  · rfl
  · exact hg a b hab

end Except

/-! ## Recorded snapshots -/

namespace History

variable {m : Metric} {xs ys : List Snapshot} {s s' : Snapshot} {h h' : History}

/-- Histories that hold the same sizes in a metric. -/
def AlikeIn (m : Metric) (h h' : History) : Prop :=
  h.snapshots.map (List.map (Snapshot.facet m)) = h'.snapshots.map (List.map (Snapshot.facet m))

theorem AlikeIn.of_eq (halike : h.AlikeIn m h') (id : String) :
    (h.of id).map (Snapshot.facet m) = (h'.of id).map (Snapshot.facet m) := by
  have hof (h : History) : (h.of id).map (Snapshot.facet m) =
      ((h.snapshots.map (List.map (Snapshot.facet m))).get? id).getD [] := by
    rw [Table.get?_map]
    unfold History.of
    cases h.snapshots.get? id <;> rfl
  rw [hof, hof, show h.snapshots.map _ = h'.snapshots.map _ from halike]

/-! ### Reading a window -/

theorem since_congr {start : Instant} (hxs : xs.map (Snapshot.facet m) = ys.map (Snapshot.facet m)) :
    (since start xs).map (List.map (Snapshot.facet m)) = (since start ys).map (List.map (Snapshot.facet m)) := by
  induction xs generalizing ys with
  | nil => rw [List.map_eq_nil_iff.mp hxs.symm]
  | cons x xs ih =>
    obtain ⟨y, ys, rfl, hfirst, hrest⟩ := List.map_eq_cons_iff.mp hxs.symm
    have htime : y.timestamp = x.timestamp := congrArg Prod.fst hfirst
    unfold since
    rw [htime, Except.map_bind, Except.map_bind]
    refine bind_congr fun t => ?_
    rw [Except.map_bind, Except.map_bind]
    refine Except.bind_congr_of_map (ih hrest.symm) fun later later' hlater => ?_
    show Except.ok (List.map _ (if _ then x :: later else later)) = .ok (List.map _ (if _ then y :: later' else later'))
    split
    · rw [List.map_cons, List.map_cons, hlater, hfirst]
    · rw [hlater]

theorem map_lastOf {α β : Type} (f : α → β) (n : Int) (xs : List α) : (lastOf n xs).map f = lastOf n (xs.map f) := by
  unfold lastOf
  rw [List.map_drop, List.length_map]

/-- A window shows of a metric what is recorded of it. -/
theorem AlikeIn.fetch {K : Type} [Scalar K] (halike : h.AlikeIn m h') (id : String) (window : Lookback) :
    (h.fetch id m window : Except Error (Series K)) = h'.fetch id m window := by
  unfold History.fetch
  refine bind_congr fun start => ?_
  refine Except.bind_congr_of_map (since_congr (halike.of_eq id)) fun found found' hfound => ?_
  have hlast : (lastOf window.maxPoints found).map (Snapshot.facet m) =
      (lastOf window.maxPoints found').map (Snapshot.facet m) := by rw [map_lastOf, map_lastOf, hfound]
  have hvalues (xs : List Snapshot) : xs.mapM (fun s => (numberOfInt (s.value m) : Except Error K)) =
      (xs.map (Snapshot.facet m)).mapM fun p => numberOfInt p.2 := by
    rw [List.mapM_map]
    rfl
  have htimes (xs : List Snapshot) : xs.map (·.timestamp) = (xs.map (Snapshot.facet m)).map Prod.fst := by
    rw [List.map_map]
    rfl
  simp only [hvalues, htimes, hlast]

/-! ### Recording -/

theorem sorted_congr (hxs : xs.map (Snapshot.facet m) = ys.map (Snapshot.facet m)) :
    (sorted xs).map (List.map (Snapshot.facet m)) = (sorted ys).map (List.map (Snapshot.facet m)) := by
  have hcomparable (xs : List Snapshot) : comparable xs =
      ((xs.map (Snapshot.facet m)).all (·.1.offset.isSome) || (xs.map (Snapshot.facet m)).all (·.1.offset.isNone)) := by
    rw [List.all_map, List.all_map]
    rfl
  have hmerge (xs : List Snapshot) :
      (xs.mergeSort fun a b => !b.timestamp.precedes a.timestamp).map (Snapshot.facet m) =
        (xs.map (Snapshot.facet m)).mergeSort fun p q => !q.1.precedes p.1 := List.map_mergeSort fun _ _ _ _ => rfl
  unfold sorted
  rw [hcomparable, hcomparable, hxs]
  split
  · show Except.ok (List.map _ _) = .ok (List.map _ _)
    rw [hmerge, hmerge, hxs]
  · rfl

/-- The snapshots with one more in its place, if its time can be compared. -/
def placed (snapshots : List Snapshot) (s : Snapshot) : Except Error (List Snapshot) :=
  match snapshots.getLast? with
  | some last =>
    s.timestamp.isBefore last.timestamp >>= fun before =>
      if before then sorted (snapshots ++ [s]) else .ok (snapshots ++ [s])
  | none => .ok (snapshots ++ [s])

theorem append_eq_placed (snapshots : List Snapshot) (s : Snapshot) : append snapshots s =
    match placed snapshots s with
    | .ok list => (.ok (), list)
    | .error e => (.error e, snapshots ++ [s]) := rfl

theorem map_concat_congr (hxs : xs.map (Snapshot.facet m) = ys.map (Snapshot.facet m)) (hs : s.facet m = s'.facet m) :
    (xs ++ [s]).map (Snapshot.facet m) = (ys ++ [s']).map (Snapshot.facet m) := by
  rw [List.map_append, List.map_append, hxs, List.map_singleton, List.map_singleton, hs]

theorem placed_congr (hxs : xs.map (Snapshot.facet m) = ys.map (Snapshot.facet m)) (hs : s.facet m = s'.facet m) :
    (placed xs s).map (List.map (Snapshot.facet m)) = (placed ys s').map (List.map (Snapshot.facet m)) := by
  have hlast : xs.getLast?.map (Snapshot.facet m) = ys.getLast?.map (Snapshot.facet m) := by
    rw [← List.getLast?_map, ← List.getLast?_map, hxs]
  unfold placed
  rcases Option.cases_of_map_eq hlast with ⟨hleft, hright⟩ | ⟨last, last', hleft, hright, heq⟩
  · rw [hleft, hright]
    exact congrArg Except.ok (map_concat_congr hxs hs)
  · have htime : s.timestamp = s'.timestamp := congrArg Prod.fst hs
    have hlastTime : last.timestamp = last'.timestamp := congrArg Prod.fst heq
    rw [hleft, hright]
    dsimp only
    rw [htime, hlastTime, Except.map_bind, Except.map_bind]
    refine bind_congr fun before => ?_
    cases before with
    | true => exact sorted_congr (map_concat_congr hxs hs)
    | false => exact congrArg Except.ok (map_concat_congr hxs hs)

theorem append_congr (hxs : xs.map (Snapshot.facet m) = ys.map (Snapshot.facet m)) (hs : s.facet m = s'.facet m) :
    (append xs s).1 = (append ys s').1 ∧
      (append xs s).2.map (Snapshot.facet m) = (append ys s').2.map (Snapshot.facet m) := by
  rw [append_eq_placed, append_eq_placed]
  rcases Except.cases_of_map_eq (placed_congr hxs hs) with ⟨e, hleft, hright⟩ | ⟨list, list', hleft, hright, heq⟩
  · rw [hleft, hright]
    exact ⟨rfl, map_concat_congr hxs hs⟩
  · rw [hleft, hright]
    exact ⟨rfl, heq⟩

/-- Points to be recorded that differ in the size of the other metric at most, and can both be read or neither. -/
structure PointAlikeIn (m : Metric) (p p' : Timestamp × Reading × Reading) : Prop where
  timestamp : p.1 = p'.1
  bytes : m = .queuedBytes → p.2.1 = p'.2.1
  count : m = .queuedCount → p.2.2 = p'.2.2
  readable : isReadable p = isReadable p'

theorem record_of_not_readable {t : Timestamp} {bytes count : Reading} (hnot : isReadable (t, bytes, count) = false)
    (h : History) (id : String) : ∃ e, h.record id t bytes count = (.error e, h) := by
  unfold isReadable at hnot
  unfold record
  cases hbytes : bytes.toInt with
  | error e => exact ⟨e, rfl⟩
  | ok b =>
    cases hcount : count.toInt with
    | error e => exact ⟨e, rfl⟩
    | ok c =>
      rw [hbytes, hcount] at hnot
      cases hnot

theorem record_of_readable {t : Timestamp} {bytes count : Reading} (hread : isReadable (t, bytes, count) = true) :
    ∃ s : Snapshot, s.timestamp = t ∧ bytes.toInt = .ok s.bytes ∧ count.toInt = .ok s.count ∧
      ∀ (h : History) (id : String), h.record id t bytes count =
        ((append (h.of id) s).1.map fun _ => s, ⟨h.snapshots.insert id (append (h.of id) s).2⟩) := by
  unfold isReadable at hread
  cases hbytes : bytes.toInt with
  | error e =>
    rw [hbytes] at hread
    cases hread
  | ok b =>
    cases hcount : count.toInt with
    | error e =>
      rw [hbytes, hcount] at hread
      cases hread
    | ok c =>
      refine ⟨⟨t, b, c⟩, rfl, rfl, rfl, fun h id => ?_⟩
      unfold record
      rw [hbytes, hcount]
      rfl

/-- Points alike in a metric are recorded both or neither, and leave histories alike in it. -/
theorem AlikeIn.record (halike : h.AlikeIn m h') (id : String) {p p' : Timestamp × Reading × Reading}
    (hp : PointAlikeIn m p p') :
    (h.record id p.1 p.2.1 p.2.2).1.isOk = (h'.record id p'.1 p'.2.1 p'.2.2).1.isOk ∧
      (h.record id p.1 p.2.1 p.2.2).2.AlikeIn m (h'.record id p'.1 p'.2.1 p'.2.2).2 := by
  cases hread : isReadable p with
  | false =>
    obtain ⟨e, hrecord⟩ := record_of_not_readable hread h id
    obtain ⟨e', hrecord'⟩ := record_of_not_readable (hp.readable.symm.trans hread) h' id
    rw [hrecord, hrecord']
    exact ⟨rfl, halike⟩
  | true =>
    obtain ⟨s, htime, hbytes, hcount, hrecord⟩ := record_of_readable hread
    obtain ⟨s', htime', hbytes', hcount', hrecord'⟩ := record_of_readable (hp.readable.symm.trans hread)
    have hs : s.facet m = s'.facet m := by
      refine Prod.ext (htime.trans (hp.timestamp.trans htime'.symm)) ?_
      cases m with
      | queuedBytes => exact Except.ok.inj (hbytes.symm.trans (hp.bytes rfl ▸ hbytes'))
      | queuedCount => exact Except.ok.inj (hcount.symm.trans (hp.count rfl ▸ hcount'))
    obtain ⟨hanswer, hlist⟩ := append_congr (halike.of_eq id) hs
    rw [hrecord, hrecord', hanswer]
    refine ⟨?_, ?_⟩
    · cases (append (h'.of id) s').1 <;> rfl
    · show (h.snapshots.insert id _).map _ = (h'.snapshots.insert id _).map _
      rw [Table.map_insert, Table.map_insert, hlist, show h.snapshots.map _ = h'.snapshots.map _ from halike]

end History

/-! ## Surroundings kept in memory -/

namespace Site

variable {K : Type} {m : Metric} {s s' : Site K}

/-- Surroundings that hold the same of a metric, and of what is common to both. -/
structure AlikeIn (m : Metric) (s s' : Site K) : Prop where
  limits : s.directory.table.map (·.get m) = s'.directory.table.map (·.get m)
  history : s.history.AlikeIn m s'.history
  pinned : s.pinned = s'.pinned
  faults : s.faults = s'.faults
  clock : s.clock = s'.clock
  monotonic : s.monotonic = s'.monotonic
  registry : s.registry = s'.registry

namespace AlikeIn

protected theorem refl (m : Metric) (s : Site K) : s.AlikeIn m s := ⟨rfl, rfl, rfl, rfl, rfl, rfl, rfl⟩

/-- What surroundings answer about a metric is told by what they hold of it. -/
theorem sources [Scalar K] (h : s.AlikeIn m s') : s.sources.AlikeIn m s'.sources where
  limits id := by
    show (s.thresholds id).map _ = (s'.thresholds id).map _
    unfold thresholds ThresholdDirectory.resolve
    rw [h.faults]
    cases s'.faults.thresholds with
    | some e => rfl
    | none =>
      have hget : (s.directory.table.get? id).map (·.get m) = (s'.directory.table.get? id).map (·.get m) := by
        rw [← Table.get?_map, ← Table.get?_map, h.limits]
      rcases Option.cases_of_map_eq hget with ⟨hleft, hright⟩ | ⟨limits, limits', hleft, hright, heq⟩
      · rw [hleft, hright]
      · rw [hleft, hright]
        exact congrArg Except.ok heq
  history id window := by
    unfold Site.sources series pinned?
    dsimp only
    rw [h.faults, h.pinned, h.history.fetch id window]
  clock := h.clock
  monotonic := h.monotonic
  registry := h.registry

/-- Limits that are registered, alike in a metric and both well formed or neither. -/
theorem register (h : s.AlikeIn m s') (id : String) {bytes bytes' : Reading} {count count' : Option Limit}
    (hbytes : m = .queuedBytes → bytes = bytes') (hcount : m = .queuedCount → count = count')
    (hok : (DataSize.parse bytes).isOk = (DataSize.parse bytes').isOk) :
    (s.register id bytes count).2.AlikeIn m (s'.register id bytes' count').2 := by
  unfold Site.register ThresholdDirectory.register
  cases hleft : DataSize.parse bytes with
  | error e =>
    cases hright : DataSize.parse bytes' with
    | error e' => exact h
    | ok limit' =>
      rw [hleft, hright] at hok
      cases hok
  | ok limit =>
    cases hright : DataSize.parse bytes' with
    | error e' =>
      rw [hleft, hright] at hok
      cases hok
    | ok limit' =>
      have hlimit : (Thresholds.mk limit count).get m = (Thresholds.mk limit' count').get m := by
        cases m with
        | queuedBytes => exact Except.ok.inj (hleft.symm.trans (hbytes rfl ▸ hright))
        | queuedCount => exact hcount rfl
      refine { h with limits := ?_ }
      show (s.directory.table.insert id ⟨limit, count⟩).map _ = (s'.directory.table.insert id ⟨limit', count'⟩).map _
      rw [Table.map_insert, Table.map_insert, h.limits, hlimit]

theorem remove (h : s.AlikeIn m s') (id : String) : (s.remove id).AlikeIn m (s'.remove id) := by
  refine { h with limits := ?_ }
  show (s.directory.table.erase id).map _ = (s'.directory.table.erase id).map _
  rw [Table.map_erase, Table.map_erase, h.limits]

theorem pin (h : s.AlikeIn m s') (series : Series K) : (s.pin series).AlikeIn m (s'.pin series) := by
  refine { h with pinned := ?_ }
  unfold Site.pin
  rw [h.pinned]

theorem record (h : s.AlikeIn m s') (id : String) {points points' : List (Timestamp × Reading × Reading)}
    (hpoints : List.Forall₂ (History.PointAlikeIn m) points points') :
    (s.record id points).2.AlikeIn m (s'.record id points').2 := by
  induction hpoints generalizing s s' with
  | nil => exact h
  | @cons p p' rest rest' hp _ ih =>
    obtain ⟨hok, hafter⟩ := h.history.record id hp
    unfold Site.record
    rcases hleft : s.history.record id p.1 p.2.1 p.2.2 with ⟨left, history⟩
    rcases hright : s'.history.record id p'.1 p'.2.1 p'.2.2 with ⟨right, history'⟩
    rw [hleft, hright] at hok hafter
    have hnext : AlikeIn m { s with history } { s' with history := history' } := { h with history := hafter }
    cases left with
    | error e =>
      cases right with
      | error e' => exact hnext
      | ok _ => cases hok
    | ok _ =>
      cases right with
      | error e' => cases hok
      | ok _ => exact ih hnext

end AlikeIn

end Site

end Backpressure
