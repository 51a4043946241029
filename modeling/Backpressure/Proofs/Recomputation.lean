import Backpressure.Proofs.Exclusion

/-!
# Recomputations in a run

A run is followed move by move, and what a thread or the cache holds at one position is traced back to the move that
brought it there.

* `Machine.after m moves n` : the machine after the first `n` moves, `Machine.Takes` : a step of a thread in a run;
* `Machine.exists_entered`, `Machine.exists_put` : the step that brought a thread where it is, and the step that put a
  cached entry;
* `Machine.Recomputation` : a successful recomputation in a run, from reading the cached entry to putting the new one;
* `Machine.exists_recomputation` : each step that puts an entry ends a recomputation;
* `Recomputation.put_lt_read` : of two recomputations of an id, one ends before the other one begins.
-/

namespace Backpressure
open Number

/-- Where a property does not hold at first and holds at last, it begins to hold for good at some step. -/
theorem exists_last_change {P : Nat → Prop} {a n : Nat} (hle : a ≤ n) (ha : ¬ P a) (hn : P n) :
    ∃ k, a ≤ k ∧ k < n ∧ ¬ P k ∧ ∀ j, k < j → j ≤ n → P j := by
  induction n with
  | zero =>
    rw [Nat.le_zero.mp hle] at ha
    exact absurd hn ha
  | succ n ih =>
    have hne : a ≠ n + 1 := by
      rintro rfl
      exact ha hn
    by_cases hbefore : P n
    · obtain ⟨k, hak, hkn, hk, hall⟩ := ih (by omega) hbefore
      refine ⟨k, hak, Nat.lt_succ_of_lt hkn, hk, fun j hkj hj => ?_⟩
      rcases Nat.le_succ_iff.mp hj with hj | rfl
      · exact hall j hkj hj
      · exact hn
    · refine ⟨n, by omega, Nat.lt_succ_self n, hbefore, fun j hnj hj => ?_⟩
      rwa [show j = n + 1 by omega]

variable {K : Type}

/-! ## What a step leads to -/

namespace Thread

/-- The answer of a thread that knows it, even if it has not finished. -/
def known? (t : Thread K) : Option (Except Error (Reply K)) :=
  match t.stage with
  | .leaving _ answer | .released _ answer | .finished answer => some answer
  | _ => none

theorem known?_of_answer? {t : Thread K} (h : t.answer?.isSome) : t.known? = t.answer? := by
  obtain ⟨call, stage⟩ := t
  cases stage with
  | finished answer => rfl
  | _ => cases h

theorem isSome_inside?_of_recomputes {t : Thread K} (h : t.recomputes = true) : t.worker.inside?.isSome := by
  obtain ⟨call, stage⟩ := t
  cases stage with
  | computing ticket previous => rfl
  | computed ticket previous outcome => rfl
  | _ => cases h

variable [Scalar K] {e : Engine K} {s : Sources K} {t : Thread K}

/-- A thread comes to compute from inside its slot, having read the cache again. -/
theorem of_advance_eq_computing {call : Call} {ticket : Ticket} {previous : Option (Entry K)}
    (h : (t.advance e s).1 = ⟨call, .computing ticket previous⟩) :
    t = ⟨call, .inside ticket⟩ ∧ t.hit? e s = none ∧ previous = e.cache.get? call.id := by
  have hstep := t.advance_spec e s
  rw [h] at hstep
  generalize (t.advance e s).2 = after at hstep
  cases hstep with
  | read hhit => exact ⟨rfl, hhit, rfl⟩
  | stayed hidle => cases hidle

theorem of_advance_eq_computed {call : Call} {ticket : Ticket} {previous : Option (Entry K)}
    {outcome : Except Error (Entry K)} (h : (t.advance e s).1 = ⟨call, .computed ticket previous outcome⟩) :
    t = ⟨call, .computing ticket previous⟩ ∧ outcome = Entry.compute s e.config e.stopped call.id previous := by
  have hstep := t.advance_spec e s
  rw [h] at hstep
  generalize (t.advance e s).2 = after at hstep
  cases hstep with
  | computed => exact ⟨rfl, rfl⟩
  | stayed hidle => cases hidle

/-- A thread that comes to know a value has found it fresh in the cache, computed it or read it before a computation that
failed. -/
inductive Learns (e : Engine K) (s : Sources K) : Thread K → Reply K → Prop
  | hit {t : Thread K} {entry : Entry K} (hget : e.cache.get? t.call.id = some entry)
      (hfresh : e.isFresh s.monotonic entry = true) : Learns e s t ⟨.cached, entry.analytics⟩
  | computed {call : Call} {ticket : Ticket} {previous : Option (Entry K)} {entry : Entry K} :
      Learns e s ⟨call, .computed ticket previous (.ok entry)⟩ ⟨.computed, entry.analytics⟩
  | stale {call : Call} {ticket : Ticket} {entry : Entry K} {error : Error} :
      Learns e s ⟨call, .computed ticket (some entry) (.error error)⟩ ⟨.stale, entry.analytics.asStale⟩

theorem learns_of_advance {reply : Reply K} (h : (t.advance e s).1.known? = some (.ok reply))
    (hnew : t.known? ≠ some (.ok reply)) : Learns e s t reply := by
  have hstep := t.advance_spec e s
  generalize t.advance e s = result at h hstep
  obtain ⟨next, after⟩ := result
  dsimp only at h hstep
  cases hstep with
  | found _ hget hfresh =>
    cases h
    exact .hit hget hfresh
  | foundInside _ hget hfresh =>
    cases h
    exact .hit hget hfresh
  | @concluded call ticket previous outcome =>
    have hspec := Engine.conclude_spec e call.id previous outcome
    have hanswer : (e.conclude call.id previous outcome).1 = .ok reply := Option.some.inj h
    generalize e.conclude call.id previous outcome = result at hspec hanswer
    obtain ⟨answer, after⟩ := result
    cases hspec with
    | computed entry => cases hanswer; exact .computed
    | unknown _ => cases hanswer
    | stale _ hp => cases hanswer; subst hp; exact .stale
    | failed _ _ => cases hanswer
    | crashed _ _ => cases hanswer
  | left _ => exact absurd h hnew
  | deregistered _ => exact absurd h hnew
  | stayed _ => exact absurd h hnew
  | _ => cases h

end Thread

/-! ## Positions in a run -/

namespace Machine

/-- An engine and its surroundings before any thread has come. -/
def start (e : Engine K) (s : Sources K) : Machine K := ⟨e, s, []⟩

variable [Scalar K]

/-- The machine after the first `n` moves. -/
def after (m : Machine K) (moves : List (Move K)) (n : Nat) : Machine K := m.run (moves.take n)

/-- The next move is a step of thread `i`, which is as `t` before it. -/
def Takes (m : Machine K) (moves : List (Move K)) (n i : Nat) (t : Thread K) : Prop :=
  moves[n]? = some (.advance i) ∧ (m.after moves n).threads[i]? = some t

section Positions

variable {m : Machine K} {moves : List (Move K)} {n i : Nat}

theorem after_length (m : Machine K) (moves : List (Move K)) : m.after moves moves.length = m.run moves := by
  unfold after
  rw [List.take_length]

theorem after_succ {move : Move K} (h : moves[n]? = some move) :
    m.after moves (n + 1) = (m.after moves n).apply move := by
  unfold after run
  rw [List.take_add_one, h, List.foldl_append]
  rfl

theorem after_succ_of_none (h : moves[n]? = none) : m.after moves (n + 1) = m.after moves n := by
  unfold after
  rw [List.take_add_one, h]
  simp

/-- One position further nothing has happened, as there are no more moves, or the next move. -/
theorem after_succ_cases (m : Machine K) (moves : List (Move K)) (n : Nat) :
    m.after moves (n + 1) = m.after moves n ∨
      ∃ move ∈ moves, moves[n]? = some move ∧ m.after moves (n + 1) = (m.after moves n).apply move := by
  cases hmove : moves[n]? with
  | none => exact .inl (after_succ_of_none hmove)
  | some move => exact .inr ⟨move, List.mem_of_getElem? hmove, rfl, after_succ hmove⟩

theorem length_le_apply (m : Machine K) (move : Move K) : m.threads.length ≤ (m.apply move).threads.length := by
  cases move with
  | begin call =>
    show _ ≤ (m.threads ++ [_]).length
    rw [List.length_append]
    exact Nat.le_add_right _ _
  | advance i =>
    cases hi : m.threads[i]? with
    | none => exact (apply_advance_of_none hi).symm ▸ Nat.le_refl _
    | some t =>
      rw [apply_advance hi]
      exact Nat.le_of_eq List.length_set.symm
  | _ => exact Nat.le_refl _

/-- Threads do not go away. -/
theorem length_le_after {a : Nat} (h : a ≤ n) :
    (m.after moves a).threads.length ≤ (m.after moves n).threads.length := by
  induction n with
  | zero => exact Nat.le_of_eq (by rw [Nat.le_zero.mp h])
  | succ n ih =>
    rcases Nat.le_succ_iff.mp h with h | rfl
    · rcases m.after_succ_cases moves n with heq | ⟨move, -, -, heq⟩
      · exact heq ▸ ih h
      · exact heq ▸ Nat.le_trans (ih h) (length_le_apply _ move)
    · exact Nat.le_refl _

/-- What a thread is after a move it was before, or it has just begun, or the move was its own step. -/
theorem threads_apply {move : Move K} {b : Thread K} (h : (m.apply move).threads[i]? = some b) :
    m.threads[i]? = some b ∨ (∃ call, b = Thread.begin call) ∨
      ∃ a, move = .advance i ∧ m.threads[i]? = some a ∧ b = (a.advance m.engine m.sources).1 := by
  cases move with
  | begin call =>
    have happend : (m.threads ++ [Thread.begin call])[i]? = some b := h
    by_cases hi : i < m.threads.length
    · rw [List.getElem?_append_left hi] at happend
      exact .inl happend
    · rw [List.getElem?_append_right (by omega)] at happend
      have hmem := List.mem_of_getElem? happend
      exact .inr (.inl ⟨call, List.mem_singleton.mp hmem⟩)
  | advance j =>
    cases hj : m.threads[j]? with
    | none =>
      rw [apply_advance_of_none hj] at h
      exact .inl h
    | some a =>
      rw [apply_advance hj] at h
      have hset : (m.threads.set j (a.advance m.engine m.sources).1)[i]? = some b := h
      by_cases hij : j = i
      · subst hij
        obtain ⟨hlt, -⟩ := List.getElem?_eq_some_iff.mp hj
        rw [List.getElem?_set_self hlt] at hset
        exact .inr (.inr ⟨a, rfl, hj, (Option.some.inj hset).symm⟩)
      · rw [List.getElem?_set_ne hij] at hset
        exact .inl hset
  | invalidate id => exact .inl h
  | invalidateAll => exact .inl h
  | surround s => exact .inl h

theorem Takes.threads {t : Thread K} (h : m.Takes moves n i t) : (m.after moves (n + 1)).threads[i]? =
    some (t.advance (m.after moves n).engine (m.after moves n).sources).1 := by
  obtain ⟨hmove, hi⟩ := h
  obtain ⟨hlt, -⟩ := List.getElem?_eq_some_iff.mp hi
  rw [after_succ hmove, apply_advance hi]
  exact List.getElem?_set_self hlt

theorem Takes.engine {t : Thread K} (h : m.Takes moves n i t) : (m.after moves (n + 1)).engine =
    (t.advance (m.after moves n).engine (m.after moves n).sources).2 := by
  obtain ⟨hmove, hi⟩ := h
  rw [after_succ hmove, apply_advance hi]

end Positions

/-! ## Tracing back -/

section Tracing

variable {e : Engine K} {s : Sources K} {moves : List (Move K)} {n i : Nat}

/-- A change of a thread that has begun before is a step of its own. -/
theorem exists_step_of_change {m : Machine K} {k : Nat} {b : Thread K} (hb : ∀ call, b ≠ Thread.begin call)
    (hk : (m.after moves k).threads[i]? ≠ some b) (hnext : (m.after moves (k + 1)).threads[i]? = some b) :
    ∃ a, m.Takes moves k i a ∧ b = (a.advance (m.after moves k).engine (m.after moves k).sources).1 := by
  cases hmove : moves[k]? with
  | none =>
    rw [after_succ_of_none hmove] at hnext
    exact absurd hnext hk
  | some move =>
    rw [after_succ hmove] at hnext
    rcases threads_apply hnext with hsame | ⟨call, hbegin⟩ | ⟨a, rfl, ha, hstep⟩
    · exact absurd hsame hk
    · exact absurd hbegin (hb call)
    · exact ⟨a, ⟨hmove, ha⟩, hstep⟩

/-- A thread that has taken a step is where its last change has brought it. -/
theorem exists_entered {a : Nat} {b : Thread K} {m : Machine K} (hle : a ≤ n)
    (ha : (m.after moves a).threads[i]? = none) (hn : (m.after moves n).threads[i]? = some b)
    (hb : ∀ call, b ≠ Thread.begin call) :
    ∃ k t, a ≤ k ∧ k < n ∧ m.Takes moves k i t ∧
      b = (t.advance (m.after moves k).engine (m.after moves k).sources).1 ∧
      ∀ j, k < j → j ≤ n → (m.after moves j).threads[i]? = some b := by
  obtain ⟨k, hak, hkn, hk, hall⟩ :=
    exists_last_change (P := fun j => (m.after moves j).threads[i]? = some b) hle (by rw [ha]; nofun) hn
  obtain ⟨t, htakes, hstep⟩ := exists_step_of_change hb hk (hall (k + 1) (Nat.lt_succ_self k) hkn)
  exact ⟨k, t, hak, hkn, htakes, hstep, hall⟩

theorem after_reachable (he : e.Reachable fun _ => True) (s : Sources K) (moves : List (Move K)) (n : Nat) :
    ((start e s).after moves n).Reachable fun _ => True :=
  ⟨e, s, moves.take n, he, trivial, fun _ _ _ _ => trivial, rfl⟩

theorem config_apply {allowed : Sources K → Prop} {m : Machine K} (h : m.Reachable allowed) (move : Move K) :
    (m.apply move).engine.config = m.engine.config := by
  have hkeeps := h.keeps (Engine.inherited_true allowed)
  cases move with
  | advance i =>
    cases hi : m.threads[i]? with
    | none => rw [apply_advance_of_none hi]
    | some t =>
      rw [apply_advance hi]
      exact (Thread.advance_keeps (Engine.inherited_true allowed) hkeeps.surroundings hkeeps.engine
        (hkeeps.threads t (List.mem_of_getElem? hi))).2.1
  | _ => rfl

theorem config_after (he : e.Reachable fun _ => True) (s : Sources K) (moves : List (Move K)) (n : Nat) :
    ((start e s).after moves n).engine.config = e.config := by
  induction n with
  | zero => rfl
  | succ n ih =>
    rcases after_succ_cases (start e s) moves n with heq | ⟨move, -, -, heq⟩
    · rw [heq, ih]
    · rw [heq, config_apply (after_reachable he s moves n) move, ih]

omit [Scalar K] in
/-- A conclusion that brings an entry into a cache is that of a computation of this entry. -/
theorem of_conclude_get?_eq_some {e : Engine K} (he : e.cache.WellFormed) {own id : String}
    {previous : Option (Entry K)} {outcome : Except Error (Entry K)} {entry : Entry K}
    (h : (e.conclude own previous outcome).2.cache.get? id = some entry) (hnew : e.cache.get? id ≠ some entry) :
    own = id ∧ outcome = .ok entry := by
  have hspec := Engine.conclude_spec e own previous outcome
  generalize e.conclude own previous outcome = result at hspec h
  obtain ⟨answer, after⟩ := result
  cases hspec with
  | computed put =>
    have hput : (e.cache.put own put).get? id = some entry := h
    by_cases hid : id = own
    · subst hid
      rw [he.get?_put_self] at hput
      cases hput
      exact ⟨rfl, rfl⟩
    · exact absurd (he.get?_put_of_ne hid hput) hnew
  | unknown _ =>
    have hdrop : (e.cache.drop own).get? id = some entry := h
    rw [Cache.get?_drop] at hdrop
    split at hdrop
    · cases hdrop
    · exact absurd hdrop hnew
  | stale _ _ => exact absurd h hnew
  | failed _ _ => exact absurd h hnew
  | crashed _ _ => exact absurd h hnew

/-- A step that brings an entry into a cache is the put of a thread that has computed this entry. -/
theorem of_apply_get?_eq_some {m : Machine K} (hm : m.engine.cache.WellFormed) {move : Move K} {id : String}
    {entry : Entry K} (h : (m.apply move).engine.cache.get? id = some entry)
    (hnew : m.engine.cache.get? id ≠ some entry) : ∃ i call ticket previous, move = .advance i ∧ call.id = id ∧
      m.threads[i]? = some ⟨call, .computed ticket previous (.ok entry)⟩ := by
  cases move with
  | begin call => exact absurd h hnew
  | advance i =>
    cases hi : m.threads[i]? with
    | none =>
      rw [apply_advance_of_none hi] at h
      exact absurd h hnew
    | some t =>
      rw [apply_advance hi] at h
      have hstep := t.advance_spec m.engine m.sources
      generalize t.advance m.engine m.sources = result at hstep h
      obtain ⟨next, after⟩ := result
      dsimp only at hstep h
      cases hstep with
      | @concluded call ticket previous outcome =>
        obtain ⟨hid, rfl⟩ := of_conclude_get?_eq_some hm h hnew
        exact ⟨i, call, ticket, previous, rfl, hid, hi⟩
      | _ => exact absurd h hnew
  | invalidate dropped =>
    have hdrop : (m.engine.cache.drop dropped).get? id = some entry := h
    rw [Cache.get?_drop] at hdrop
    split at hdrop
    · cases hdrop
    · exact absurd hdrop hnew
  | invalidateAll => cases h
  | surround s => exact absurd h hnew

/-- A cached entry that was not there before has been put by a thread, and has not been dropped since. -/
theorem exists_put (he : e.Reachable fun _ => True) {a : Nat} {id : String} {entry : Entry K} (hle : a ≤ n)
    (ha : ((start e s).after moves a).engine.cache.get? id ≠ some entry)
    (hn : ((start e s).after moves n).engine.cache.get? id = some entry) :
    ∃ k j call ticket previous, a ≤ k ∧ k < n ∧ call.id = id ∧
      (start e s).Takes moves k j ⟨call, .computed ticket previous (.ok entry)⟩ := by
  obtain ⟨k, hak, hkn, hk, hall⟩ :=
    exists_last_change (P := fun j => ((start e s).after moves j).engine.cache.get? id = some entry) hle ha hn
  have hnext := hall (k + 1) (Nat.lt_succ_self k) hkn
  cases hmove : moves[k]? with
  | none =>
    rw [after_succ_of_none hmove] at hnext
    exact absurd hnext hk
  | some move =>
    rw [after_succ hmove] at hnext
    obtain ⟨j, call, ticket, previous, rfl, hid, hj⟩ :=
      of_apply_get?_eq_some ((after_reachable he s moves k).wellFormed) hnext hk
    exact ⟨k, j, call, ticket, previous, hak, hkn, hid, hmove, hj⟩

end Tracing

/-! ## Recomputations -/

/-- A recomputation of an id that puts an entry. Inside the slot of the id the thread finds nothing fresh or does not ask,
and reads the cached entry; it fetches the history and computes; and it puts the new entry. -/
structure Recomputation (m : Machine K) (moves : List (Move K)) (id : String) where
  thread : Nat
  /-- Whether new analytics were asked for in any case. -/
  forced : Bool
  ticket : Ticket
  previous : Option (Entry K)
  entry : Entry K
  /-- The positions of the three steps. -/
  read : Nat
  fetch : Nat
  put : Nat
  read_lt_fetch : read < fetch
  fetch_lt_put : fetch < put
  takes_read : m.Takes moves read thread ⟨⟨id, forced⟩, .inside ticket⟩
  hit?_eq_none : Thread.hit? ⟨⟨id, forced⟩, .inside ticket⟩ (m.after moves read).engine (m.after moves read).sources = none
  previous_eq : previous = (m.after moves read).engine.cache.get? id
  takes_fetch : m.Takes moves fetch thread ⟨⟨id, forced⟩, .computing ticket previous⟩
  compute_eq : Entry.compute (m.after moves fetch).sources (m.after moves fetch).engine.config
    (m.after moves fetch).engine.stopped id previous = .ok entry
  takes_put : m.Takes moves put thread ⟨⟨id, forced⟩, .computed ticket previous (.ok entry)⟩
  computing : ∀ j, read < j → j ≤ fetch →
    (m.after moves j).threads[thread]? = some ⟨⟨id, forced⟩, .computing ticket previous⟩
  computed : ∀ j, fetch < j → j ≤ put →
    (m.after moves j).threads[thread]? = some ⟨⟨id, forced⟩, .computed ticket previous (.ok entry)⟩

section Recomputations

variable {e : Engine K} {s : Sources K} {moves : List (Move K)} {a n i : Nat}

/-- The step with which a thread that computes has read the cached entry. -/
theorem exists_read {m : Machine K} {call : Call} {ticket : Ticket} {previous : Option (Entry K)} (hle : a ≤ n)
    (ha : (m.after moves a).threads[i]? = none)
    (hn : (m.after moves n).threads[i]? = some ⟨call, .computing ticket previous⟩) :
    ∃ k, a ≤ k ∧ k < n ∧ m.Takes moves k i ⟨call, .inside ticket⟩ ∧
      Thread.hit? ⟨call, .inside ticket⟩ (m.after moves k).engine (m.after moves k).sources = none ∧
      previous = (m.after moves k).engine.cache.get? call.id ∧
      ∀ j, k < j → j ≤ n → (m.after moves j).threads[i]? = some ⟨call, .computing ticket previous⟩ := by
  obtain ⟨k, t, hak, hkn, htakes, hstep, hall⟩ := exists_entered hle ha hn fun _ h => by cases h
  obtain ⟨rfl, hhit, hprevious⟩ := Thread.of_advance_eq_computing hstep.symm
  exact ⟨k, hak, hkn, htakes, hhit, hprevious, hall⟩

/-- The step with which a thread that has computed has fetched the history. -/
theorem exists_fetch {m : Machine K} {call : Call} {ticket : Ticket} {previous : Option (Entry K)}
    {outcome : Except Error (Entry K)} (hle : a ≤ n) (ha : (m.after moves a).threads[i]? = none)
    (hn : (m.after moves n).threads[i]? = some ⟨call, .computed ticket previous outcome⟩) :
    ∃ k, a ≤ k ∧ k < n ∧ m.Takes moves k i ⟨call, .computing ticket previous⟩ ∧
      outcome = Entry.compute (m.after moves k).sources (m.after moves k).engine.config (m.after moves k).engine.stopped
        call.id previous ∧
      ∀ j, k < j → j ≤ n → (m.after moves j).threads[i]? = some ⟨call, .computed ticket previous outcome⟩ := by
  obtain ⟨k, t, hak, hkn, htakes, hstep, hall⟩ := exists_entered hle ha hn fun _ h => by cases h
  obtain ⟨rfl, houtcome⟩ := Thread.of_advance_eq_computed hstep.symm
  exact ⟨k, hak, hkn, htakes, houtcome, hall⟩

/-- A step that puts an entry ends a recomputation, which began after the thread did. -/
theorem exists_recomputation {m : Machine K} {call : Call} {ticket : Ticket} {previous : Option (Entry K)}
    {entry : Entry K} (hle : a ≤ n) (ha : (m.after moves a).threads[i]? = none)
    (hn : m.Takes moves n i ⟨call, .computed ticket previous (.ok entry)⟩) :
    ∃ r : m.Recomputation moves call.id, a ≤ r.read ∧ r.put = n ∧ r.entry = entry ∧ r.forced = call.forced := by
  obtain ⟨fetch, haf, hfn, hfetch, hcompute, hcomputed⟩ := exists_fetch hle ha hn.2
  obtain ⟨read, har, hrf, hread, hhit, hprevious, hcomputing⟩ := exists_read haf ha hfetch.2
  exact ⟨⟨i, call.forced, ticket, previous, entry, read, fetch, n, hrf, hfn, hread, hhit, hprevious, hfetch,
    hcompute.symm, hn, hcomputing, hcomputed⟩, har, rfl, rfl, rfl⟩

/-- A cached entry that was not there before has been put by a recomputation since. -/
theorem exists_recomputation_of_get? (he : e.Reachable fun _ => True) {id : String} {entry : Entry K} (hle : a ≤ n)
    (ha : ((start e s).after moves a).engine.cache.get? id ≠ some entry)
    (hn : ((start e s).after moves n).engine.cache.get? id = some entry) :
    ∃ r : (start e s).Recomputation moves id, a ≤ r.put ∧ r.put < n ∧ r.entry = entry := by
  obtain ⟨k, j, call, ticket, previous, hak, hkn, rfl, htakes⟩ := exists_put he hle ha hn
  obtain ⟨r, -, rfl, hentry, -⟩ := exists_recomputation (Nat.zero_le k) rfl htakes
  exact ⟨r, hak, hkn, hentry⟩

/-- Two threads in the slot of one id are one thread. -/
theorem Reachable.eq_of_inside {allowed : Sources K → Prop} {m : Machine K} (h : m.Reachable allowed) {j : Nat}
    {t u : Thread K} (hi : m.threads[i]? = some t) (hj : m.threads[j]? = some u) (ht : t.worker.inside?.isSome)
    (hu : u.worker.inside?.isSome) (hid : t.call.id = u.call.id) : i = j := by
  have hworker : ∀ {k : Nat} {v : Thread K}, m.threads[k]? = some v → m.workshop.workers[k]? = some v.worker := by
    intro k v hk
    show (m.threads.map Thread.worker)[k]? = _
    rw [List.getElem?_map, hk]
    rfl
  exact h.orderly.eq_of_inside (hworker hi) (hworker hj) ht hu hid

namespace Recomputation

variable {m : Machine K} {id : String}

/-- From its read to its put the thread is in the slot. -/
theorem exists_inside (r : m.Recomputation moves id) {j : Nat} (hread : r.read ≤ j) (hput : j ≤ r.put) :
    ∃ t, (m.after moves j).threads[r.thread]? = some t ∧ t.call.id = id ∧ t.worker.inside?.isSome := by
  rcases Nat.lt_or_eq_of_le hread with hread | rfl
  · rcases Nat.lt_or_ge r.fetch j with hfetch | hfetch
    · exact ⟨_, r.computed j hfetch hput, rfl, rfl⟩
    · exact ⟨_, r.computing j hread hfetch, rfl, rfl⟩
  · exact ⟨_, r.takes_read.2, rfl, rfl⟩

/-- After its read and until its put the thread recomputes. -/
theorem exists_recomputes (r : m.Recomputation moves id) {j : Nat} (hread : r.read < j) (hput : j ≤ r.put) :
    ∃ t, (m.after moves j).threads[r.thread]? = some t ∧ t.call.id = id ∧ t.recomputes = true := by
  rcases Nat.lt_or_ge r.fetch j with hfetch | hfetch
  · exact ⟨_, r.computed j hfetch hput, rfl, rfl⟩
  · exact ⟨_, r.computing j hread hfetch, rfl, rfl⟩

/-- The put leaves the entry in the cache. -/
theorem get?_put (he : e.Reachable fun _ => True) (r : (start e s).Recomputation moves id) :
    ((start e s).after moves (r.put + 1)).engine.cache.get? id = some r.entry := by
  rw [r.takes_put.engine]
  exact (after_reachable he s moves r.put).wellFormed.get?_put_self id r.entry

/-- The thread leaves the slot without another put. -/
theorem threads_put (r : m.Recomputation moves id) : (m.after moves (r.put + 1)).threads[r.thread]? =
    some ⟨⟨id, r.forced⟩, .leaving r.ticket (.ok ⟨.computed, r.entry.analytics⟩)⟩ := r.takes_put.threads

/-- Recomputations of one id do not overlap: their threads are in its slot. -/
theorem put_lt_read (he : e.Reachable fun _ => True) (r₁ r₂ : (start e s).Recomputation moves id)
    (h : r₁.put < r₂.put) : r₁.put < r₂.read := by
  by_contra hread
  have hfetch₁ := r₁.read_lt_fetch
  have hput₁ := r₁.fetch_lt_put
  obtain ⟨t, ht, htid, htinside⟩ := r₁.exists_inside (j := r₁.put) (by omega) (Nat.le_refl _)
  obtain ⟨u, hu, huid, huinside⟩ := r₂.exists_inside (j := r₁.put) (by omega) (Nat.le_of_lt h)
  have hthread : r₁.thread = r₂.thread :=
    (after_reachable he s moves r₁.put).eq_of_inside ht hu htinside huinside (htid.trans huid.symm)
  -- So the two would be of one thread, which has left the slot after its put.
  obtain ⟨v, hv, -, hrecomputes⟩ := r₂.exists_recomputes (j := r₁.put + 1) (by omega) h
  rw [← hthread, r₁.threads_put] at hv
  cases hv
  cases hrecomputes

end Recomputation

end Recomputations

end Machine

end Backpressure
