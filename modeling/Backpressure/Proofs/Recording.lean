import Backpressure.Proofs.Cache
import Backpressure.Proofs.Windows

/-!
# Recording snapshots in order

* `recordedTimes` : the times that are recorded of points one after another;
* `Site.record_of` : what is recorded in order comes after all that is there;
* `Site.record_frame` : recording changes nothing but the history.
-/

namespace Backpressure
open Time

/-- The times of snapshots. -/
def times (snapshots : List Snapshot) : List Int := snapshots.map (·.timestamp.utcMicros)

theorem chronological_iff {snapshots : List Snapshot} : Chronological snapshots ↔ (times snapshots).Pairwise (· < ·) :=
  List.pairwise_map.symm

/-- Whether the sizes in a point to be recorded are numbers. -/
def isReadable (p : Timestamp × Reading × Reading) : Bool := p.2.1.toInt.isOk && p.2.2.toInt.isOk

/-- The times that are recorded of points one after another, up to the first that cannot be read. -/
def recordedTimes (points : List (Timestamp × Reading × Reading)) : List Int :=
  (points.takeWhile isReadable).map (·.1.utcMicros)

theorem recordedTimes_cons (p : Timestamp × Reading × Reading) (rest : List (Timestamp × Reading × Reading)) :
    recordedTimes (p :: rest) = if isReadable p then p.1.utcMicros :: recordedTimes rest else [] := by
  unfold recordedTimes
  rw [List.takeWhile_cons]
  split <;> rfl

namespace History

/-- A snapshot later than all others comes to stand at the end, whether or not the times could be compared. -/
theorem append_of_later {snapshots : List Snapshot} {s : Snapshot} (hfixed : s.timestamp.Fixed)
    (h : ∀ last ∈ snapshots, last.timestamp.utcMicros < s.timestamp.utcMicros) :
    (append snapshots s).2 = snapshots ++ [s] := by
  have hadded := append_spec snapshots s
  generalize append snapshots s = result at hadded
  cases hadded with
  | first => rfl
  | last => rfl
  | @placed last list hlast hbefore =>
    have hlt := h last (List.mem_of_getLast? hlast)
    rw [Timestamp.isBefore_eq_ok, (hfixed.agree last.timestamp).precedes_eq, decide_eq_true_eq] at hbefore
    omega
  | kept => rfl

/-- Recording a point later than all snapshots adds it at the end, if its sizes can be read. -/
theorem record_of {h : History} {id : String} {t : Timestamp} {bytes count : Reading} (hfixed : t.Fixed)
    (hlater : isReadable (t, bytes, count) = true → ∀ last ∈ h.of id, last.timestamp.utcMicros < t.utcMicros) :
    ∃ added, times added = recordedTimes [(t, bytes, count)] ∧
      ((h.record id t bytes count).1.isOk = true → isReadable (t, bytes, count) = true) ∧
      ∀ other, (h.record id t bytes count).2.of other = h.of other ++ if other = id then added else [] := by
  rw [recordedTimes_cons]
  unfold isReadable at hlater ⊢
  unfold record
  dsimp only at hlater ⊢
  cases hbytes : bytes.toInt with
  | error e =>
    refine ⟨[], rfl, fun hok => absurd hok Bool.false_ne_true, fun other => ?_⟩
    show h.of other = _
    simp
  | ok b =>
    cases hcount : count.toInt with
    | error e =>
    refine ⟨[], rfl, fun hok => absurd hok Bool.false_ne_true, fun other => ?_⟩
    show h.of other = _
    simp
    | ok c =>
      rw [hbytes, hcount] at hlater
      refine ⟨[⟨t, b, c⟩], rfl, fun _ => rfl, fun other => ?_⟩
      show ((h.snapshots.insert id (append (h.of id) ⟨t, b, c⟩).2).get? other).getD [] = _
      rw [Table.get?_insert, append_of_later hfixed (hlater rfl)]
      split
      · next heq =>
        subst heq
        rfl
      · exact (List.append_nil _).symm

end History

namespace Site

variable {K : Type}

theorem record_frame (s : Site K) (id : String) (points : List (Timestamp × Reading × Reading)) :
    ∃ history, (s.record id points).2 = { s with history } := by
  induction points generalizing s with
  | nil => exact ⟨s.history, rfl⟩
  | cons p rest ih =>
    obtain ⟨t, bytes, count⟩ := p
    unfold record
    split
    · exact ih _
    · exact ⟨_, rfl⟩

/-- What is recorded in order comes after all that is there. -/
theorem record_of {s : Site K} {id : String} {points : List (Timestamp × Reading × Reading)}
    (hfixed : ∀ p ∈ points, p.1.Fixed)
    (h : (times (s.history.of id) ++ recordedTimes points).Pairwise (· < ·)) :
    ∃ new, (times new).Sublist (recordedTimes points) ∧
      ∀ other, (s.record id points).2.history.of other = s.history.of other ++ if other = id then new else [] := by
  induction points generalizing s with
  | nil => exact ⟨[], List.nil_sublist _, fun other => by simp [record]⟩
  | cons p rest ih =>
    obtain ⟨t, bytes, count⟩ := p
    rw [recordedTimes_cons] at h ⊢
    rw [List.forall_mem_cons] at hfixed
    have hlater : isReadable (t, bytes, count) = true →
        ∀ last ∈ s.history.of id, last.timestamp.utcMicros < t.utcMicros := by
      intro hreadable last hlast
      rw [if_pos hreadable] at h
      exact (List.pairwise_append.mp h).2.2 _ (List.mem_map_of_mem hlast) _ List.mem_cons_self
    obtain ⟨added, htimes, hok, hof⟩ := History.record_of hfixed.1 hlater
    rw [recordedTimes_cons] at htimes
    rcases hrecord : s.history.record id t bytes count with ⟨e | snapshot, history⟩
    · rw [hrecord] at hof
      refine ⟨added, ?_, fun other => ?_⟩
      · rw [htimes]
        split
        · exact (List.nil_sublist _).cons_cons _
        · exact List.Sublist.refl _
      · simp only [record, hrecord]
        exact hof other
    · rw [hrecord] at hok hof
      rw [if_pos (hok rfl)] at h htimes ⊢
      have hself : history.of id = s.history.of id ++ added := by rw [hof, if_pos rfl]
      have hnext : (times (history.of id) ++ recordedTimes rest).Pairwise (· < ·) := by
        rw [hself, times, List.map_append, ← times, ← times, htimes, List.append_assoc]
        exact h
      obtain ⟨new, hsub, hnew⟩ := ih (s := { s with history }) hfixed.2 hnext
      refine ⟨added ++ new, ?_, fun other => ?_⟩
      · rw [times, List.map_append, ← times, ← times, htimes]
        exact hsub.cons_cons _
      · simp only [record, hrecord]
        rw [hnew, hof]
        split <;> simp

end Site

end Backpressure
