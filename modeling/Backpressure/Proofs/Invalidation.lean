import Backpressure.Proofs.Recomputation

/-!
# What is returned after an invalidation

* `Machine.exists_learns` : the step with which a thread comes to know a value;
* `Machine.answers_after_invalidation` : a call that begins after an invalidation returns a value of a recomputation that
  began after it too, or of the one that was in progress. An invalidation does not stop that one from putting its entry;
* `Machine.put_after_invalidation` : a run in which it does.
-/

namespace Backpressure
open Number

variable {K : Type} [Scalar K]

namespace Machine

/-- The step with which a thread that knows a value has come to know it. -/
theorem exists_learns {m : Machine K} {moves : List (Move K)} {a n i : Nat} (hle : a ≤ n)
    (ha : (m.after moves a).threads[i]? = none) {b : Thread K} {reply : Reply K}
    (hn : (m.after moves n).threads[i]? = some b) (hknown : b.known? = some (.ok reply)) :
    ∃ k t, a ≤ k ∧ k < n ∧ m.Takes moves k i t ∧
      Thread.Learns (m.after moves k).engine (m.after moves k).sources t reply ∧ t.call = b.call := by
  obtain ⟨k, hak, hkn, hk, hall⟩ := exists_last_change
    (P := fun j => ∃ t, (m.after moves j).threads[i]? = some t ∧ t.call = b.call ∧ t.known? = some (.ok reply)) hle
    (fun ⟨t, ht, _⟩ => by rw [ha] at ht; cases ht) ⟨b, hn, rfl, hknown⟩
  obtain ⟨after, hafter, hcall, hlearned⟩ := hall (k + 1) (Nat.lt_succ_self k) hkn
  have hnotBegin : ∀ call, after ≠ Thread.begin call := by
    rintro call rfl
    cases hlearned
  have hchange : (m.after moves k).threads[i]? ≠ some after := fun h => hk ⟨after, h, hcall, hlearned⟩
  obtain ⟨t, htakes, rfl⟩ := exists_step_of_change hnotBegin hchange hafter
  have hnew : t.known? ≠ some (.ok reply) := fun h => hk ⟨t, htakes.2, hcall, h⟩
  exact ⟨k, t, hak, hkn, htakes, Thread.learns_of_advance hlearned hnew, hcall⟩

section Invalidation

variable {e : Engine K} {s : Sources K} {moves : List (Move K)} {id : String} {k : Nat}

theorem get?_after_drop {m : Machine K} (hdrop : moves[k]? = some (.invalidate id) ∨ moves[k]? = some .invalidateAll) :
    (m.after moves (k + 1)).engine.cache.get? id = none := by
  rcases hdrop with hmove | hmove
  · rw [after_succ hmove]
    exact (Cache.get?_drop _ id id).trans (if_pos rfl)
  · rw [after_succ hmove]
    rfl

/-- What is cached after an invalidation has been put after it. -/
theorem exists_recomputation_after_drop (he : e.Reachable fun _ => True) {n : Nat} (hle : k + 1 ≤ n)
    (hdrop : moves[k]? = some (.invalidate id) ∨ moves[k]? = some .invalidateAll) {entry : Entry K}
    (hn : ((start e s).after moves n).engine.cache.get? id = some entry) :
    ∃ r : (start e s).Recomputation moves id, k < r.put ∧ r.put < n ∧ r.entry = entry := by
  refine exists_recomputation_of_get? he hle ?_ hn
  rw [get?_after_drop hdrop]
  nofun

/-- The value that a call returns which begins after an invalidation comes from a recomputation of the connection that
read the cached entry after the invalidation, and so fetched the history after it, or from the only one that had read an
entry before the invalidation and not concluded. -/
theorem answers_after_invalidation (he : e.Reachable fun _ => True)
    (hdrop : moves[k]? = some (.invalidate id) ∨ moves[k]? = some .invalidateAll) {n i : Nat} (hn : k < n)
    (hbegun : ((start e s).after moves (k + 1)).threads[i]? = none) {call : Call} (hid : call.id = id)
    {reply : Reply K} (hanswer : ((start e s).after moves n).threads[i]? = some ⟨call, .finished (.ok reply)⟩) :
    ∃ r : (start e s).Recomputation moves id,
      (reply.value = r.entry.analytics ∨ reply.value = r.entry.analytics.asStale) ∧ r.put < n ∧
      ((k < r.read ∧ k < r.fetch) ∨ r.read < k ∧ k < r.put ∧
        ∀ j t, ((start e s).after moves k).threads[j]? = some t → t.call.id = id → t.recomputes = true →
          j = r.thread) := by
  -- Whatever the value is, it is that of an entry put after the invalidation.
  have hput : ∃ r : (start e s).Recomputation moves id,
      (reply.value = r.entry.analytics ∨ reply.value = r.entry.analytics.asStale) ∧ r.put < n ∧ k < r.put := by
    obtain ⟨step, t, hkstep, hstepn, htakes, hlearns, hcall⟩ := exists_learns hn hbegun hanswer rfl
    subst hid
    cases hlearns with
    | hit hget _ =>
      rw [hcall] at hget
      obtain ⟨r, hkr, hrstep, rfl⟩ := exists_recomputation_after_drop he hkstep hdrop hget
      exact ⟨r, .inl rfl, Nat.lt_trans hrstep hstepn, hkr⟩
    | @computed own ticket previous entry =>
      obtain rfl : own = call := hcall
      obtain ⟨r, hread, rfl, rfl, -⟩ := exists_recomputation hkstep hbegun htakes
      have hfetch := r.read_lt_fetch
      have hput := r.fetch_lt_put
      exact ⟨r, .inl rfl, hstepn, by omega⟩
    | @stale own ticket entry error =>
      obtain rfl : own = call := hcall
      obtain ⟨fetch, hkfetch, hfetchstep, hfetch, -, -⟩ := exists_fetch hkstep hbegun htakes.2
      obtain ⟨read, hkread, hreadfetch, -, -, hprevious, -⟩ := exists_read hkfetch hbegun hfetch.2
      obtain ⟨r, hkr, hrread, rfl⟩ := exists_recomputation_after_drop he hkread hdrop hprevious.symm
      exact ⟨r, .inr rfl, by omega, hkr⟩
  obtain ⟨r, hvalue, hrn, hkr⟩ := hput
  refine ⟨r, hvalue, hrn, ?_⟩
  have hfetch := r.read_lt_fetch
  rcases Nat.lt_trichotomy r.read k with hread | hread | hread
  · refine .inr ⟨hread, hkr, fun j t hj htid hrecomputes => ?_⟩
    obtain ⟨u, hu, huid, hurecomputes⟩ := r.exists_recomputes hread (Nat.le_of_lt hkr)
    exact (after_reachable he s moves k).eq_of_inside hj hu (Thread.isSome_inside?_of_recomputes hrecomputes)
      (Thread.isSome_inside?_of_recomputes hurecomputes) (htid.trans huid.symm)
  · have hmove := r.takes_read.1
    rw [hread] at hmove
    rcases hdrop with hdrop | hdrop <;> rw [hmove] at hdrop <;> cases hdrop
  · exact .inl ⟨hread, by omega⟩

end Invalidation

/-! ## A recomputation that is in progress -/

/-- A thread computes the analytics of a connection anew from a limit of 100, the limit is raised to 200, the connection is
invalidated, and only then the thread puts its entry. Another thread asks afterwards. -/
def latePut : List (Move Float) :=
  [.begin ⟨"orders", true⟩, .advance 0, .advance 0, .advance 0, .advance 0, .advance 0,
    .surround { Sources.quiet with thresholds := fun _ => .ok ⟨some (.amount 200), none⟩ },
    .invalidate "orders", .advance 0, .begin ⟨"orders", false⟩, .advance 1]

/-- The second thread is given the limit of 100, and no recomputation begins after the invalidation. -/
theorem put_after_invalidation :
    latePut[7]? = some (.invalidate "orders") ∧ ((start .warm .quiet).after latePut 8).threads[1]? = none ∧
    (∃ reply, ((start .warm .quiet).after latePut 11).threads[1]? =
      some ⟨⟨"orders", false⟩, .finished (.ok reply)⟩ ∧ reply.value.limit.bytes = some (.amount 100)) ∧
    ¬ ∃ r : (start .warm .quiet).Recomputation latePut "orders", 7 < r.read := by
  refine ⟨rfl, rfl, ⟨_, rfl, rfl⟩, ?_⟩
  rintro ⟨r, hread⟩
  have hread_fetch := r.read_lt_fetch
  -- Two threads take one step each after the invalidation, and a recomputation takes three of one thread.
  have hadvance : ∀ p i, 7 < p → latePut[p]? = some (.advance i) → p = 8 ∧ i = 0 ∨ p = 10 ∧ i = 1 := by
    intro p i hp hmove
    obtain ⟨hlt, -⟩ := List.getElem?_eq_some_iff.mp hmove
    have hlength : latePut.length = 11 := rfl
    obtain rfl | rfl | rfl : p = 8 ∨ p = 9 ∨ p = 10 := by omega
    · cases hmove
      exact .inl ⟨rfl, rfl⟩
    · cases hmove
    · cases hmove
      exact .inr ⟨rfl, rfl⟩
  have hone := hadvance r.read r.thread hread r.takes_read.1
  have htwo := hadvance r.fetch r.thread (by omega) r.takes_fetch.1
  omega

/-- In the run with the late put the second thread returns the value of the recomputation that was in progress. -/
theorem answer_after_late_put : ∃ reply,
    ((start .warm .quiet).after latePut 11).threads[1]? = some ⟨⟨"orders", false⟩, .finished (.ok reply)⟩ ∧
    ∃ r : (start .warm .quiet).Recomputation latePut "orders",
      (reply.value = r.entry.analytics ∨ reply.value = r.entry.analytics.asStale) ∧ r.put < 11 ∧
      ((7 < r.read ∧ 7 < r.fetch) ∨ r.read < 7 ∧ 7 < r.put ∧
        ∀ j t, ((start .warm .quiet).after latePut 7).threads[j]? = some t → t.call.id = "orders" →
          t.recomputes = true → j = r.thread) := by
  have hwarm : Engine.warm.Reachable fun _ => True := .refresh (.create Engine.create_cold) trivial "orders"
  have hanswer : ∃ reply, ((start .warm .quiet).after latePut 11).threads[1]? =
      some ⟨⟨"orders", false⟩, .finished (.ok reply)⟩ := ⟨_, rfl⟩
  obtain ⟨reply, hreply⟩ := hanswer
  have hbegun : ((start .warm .quiet).after latePut 8).threads[1]? = none := rfl
  exact ⟨reply, hreply,
    answers_after_invalidation hwarm (.inl rfl) (by decide : 7 < 11) hbegun rfl hreply⟩

end Machine

end Backpressure
