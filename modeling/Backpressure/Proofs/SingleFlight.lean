import Backpressure.Proofs.Differences
import Backpressure.Proofs.Recomputation

/-!
# One recomputation at a time

* `Machine.Calm` : the moves of calls for the analytics of one connection while the clock stands still;
* `Machine.Pending`, `Machine.Served` : what holds before a recomputation has put its entry, and after;
* `Pending.apply`, `Served.apply`, `pending_or_served` : one step and a whole run;
* `Machine.refresh_le_sub` : recomputations that calls do not insist on are a refresh interval apart;
* `Machine.single_flight` : both, and that no two recomputations of a connection are in progress at once.
-/

namespace Backpressure
open Number

variable {K : Type} [Scalar K]

/-! ## A step of one thread -/

namespace Thread

variable {t : Thread K} {e : Engine K} {s : Sources K}

/-- A thread that does not recompute, while the cached entry is fresh, finds it once and then knows it. -/
theorem advance_of_fresh (hforced : t.call.forced = false) {entry : Entry K}
    (hget : e.cache.get? t.call.id = some entry) (hfresh : e.isFresh s.monotonic entry = true)
    (hidle : t.recomputes = false) :
    (t.advance e s).2.cache = e.cache ∧ (t.advance e s).2.config = e.config ∧
    (t.advance e s).1.recomputes = false ∧
    (t.known? = none ∧ (t.advance e s).1.known? = some (.ok ⟨.cached, entry.analytics⟩) ∧
        (t.advance e s).2.counters = { e.counters with cacheHits := e.counters.cacheHits + 1 } ∨
      (t.advance e s).1.known? = t.known? ∧ (t.advance e s).2.counters = e.counters) := by
  have hhit : ∀ {stage : Stage K}, hit? ⟨t.call, stage⟩ e s ≠ none := by
    intro stage hnone
    have hold := hit?_eq_none.mp hnone hforced entry hget
    rw [hfresh] at hold
    cases hold
  have hstep := t.advance_spec e s
  generalize t.advance e s = result at hstep ⊢
  obtain ⟨next, after⟩ := result
  dsimp only at hstep ⊢
  cases hstep with
  | found _ hfound _ =>
    cases hget.symm.trans hfound
    exact ⟨rfl, rfl, rfl, .inl ⟨rfl, rfl, rfl⟩⟩
  | foundInside _ hfound _ =>
    cases hget.symm.trans hfound
    exact ⟨rfl, rfl, rfl, .inl ⟨rfl, rfl, rfl⟩⟩
  | read hnone => exact absurd hnone hhit
  | computed => cases hidle
  | concluded => cases hidle
  | stayed _ => exact ⟨rfl, rfl, hidle, .inr ⟨rfl, rfl⟩⟩
  | _ => exact ⟨rfl, rfl, rfl, .inr ⟨rfl, rfl⟩⟩

/-- A thread that knows no answer and has not computed one, while no cached entry is fresh, learns none and changes
nothing but the slots. -/
theorem advance_of_stale (hstale : ∀ entry, e.cache.get? t.call.id = some entry → e.isFresh s.monotonic entry = false)
    (hunknown : t.known? = none) (hnot : ∀ ticket previous outcome, t.stage ≠ .computed ticket previous outcome) :
    (t.advance e s).2.cache = e.cache ∧ (t.advance e s).2.config = e.config ∧
    (t.advance e s).2.counters = e.counters ∧ (t.advance e s).1.known? = none := by
  have hstep := t.advance_spec e s
  generalize t.advance e s = result at hstep ⊢
  obtain ⟨next, after⟩ := result
  dsimp only at hstep ⊢
  cases hstep with
  | found _ hget hfresh =>
    rw [hstale _ hget] at hfresh
    cases hfresh
  | foundInside _ hget hfresh =>
    rw [hstale _ hget] at hfresh
    cases hfresh
  | concluded => exact absurd rfl (hnot _ _ _)
  | left _ => cases hunknown
  | deregistered _ => cases hunknown
  | stayed _ => exact ⟨rfl, rfl, rfl, hunknown⟩
  | _ => exact ⟨rfl, rfl, rfl, rfl⟩

end Thread

theorem Engine.isFresh_of_config {e e' : Engine K} (h : e'.config = e.config) (now : K) (entry : Entry K) :
    e'.isFresh now entry = e.isFresh now entry := by
  unfold isFresh
  rw [h]

namespace Machine

/-! ## Calls while the clock stands still -/

/-- A move that begins no call but for the analytics of a connection, drops no entry of this connection and leaves the
clock as it is. -/
def Calm (id : String) (now : K) : Move K → Prop
  | .begin call => call = ⟨id, false⟩
  | .advance _ => True
  | .invalidate other => other ≠ id
  | .invalidateAll => False
  | .surround s => s.monotonic = now

omit [Scalar K] in
theorem calm_overlapping {id : String} {now : K} {calls : List Call} (h : ∀ call ∈ calls, call = ⟨id, false⟩) :
    ∀ move ∈ overlapping calls, Calm id now move := by
  intro move hmove
  simp only [overlapping, List.mem_append, List.mem_map, List.mem_flatMap] at hmove
  rcases hmove with (⟨call, hcall, rfl⟩ | ⟨i, -, hi⟩) | ⟨i, -, hi⟩
  · exact h call hcall
  · rw [List.eq_of_mem_replicate hi]
    trivial
  · rw [List.eq_of_mem_replicate hi]
    trivial

/-- The number of threads that know their answer. -/
def knowing (m : Machine K) : Nat := m.threads.countP fun t => t.known?.isSome

/-- All threads ask for the analytics of a connection, at one time. -/
structure Asking (id : String) (now : K) (m : Machine K) : Prop where
  calls : ∀ t ∈ m.threads, t.call = ⟨id, false⟩
  clock : m.sources.monotonic = now

/-- Before a recomputation has put its entry: nothing fresh is cached, no thread knows an answer and nothing has been
counted. -/
structure Pending (id : String) (now : K) (base : Counters) (m : Machine K) : Prop extends Asking id now m where
  stale : ∀ entry, m.engine.cache.get? id = some entry → m.engine.isFresh now entry = false
  unknown : ∀ t ∈ m.threads, t.known? = none
  outcomes : ∀ t ∈ m.threads, ∀ ticket previous outcome, t.stage = .computed ticket previous outcome →
    ∃ entry, outcome = .ok entry ∧ entry.computedMonotonic = now
  counters : m.engine.counters = base

/-- While a fresh entry is cached: no thread recomputes, each thread that knows an answer knows this entry's, and
`computations` of them have computed it and the others have found it. -/
structure Served (id : String) (now : K) (base : Counters) (computations : Nat) (entry : Entry K) (m : Machine K) :
    Prop extends Asking id now m where
  get : m.engine.cache.get? id = some entry
  fresh : m.engine.isFresh now entry = true
  idle : ∀ t ∈ m.threads, t.recomputes = false
  replies : ∀ t ∈ m.threads, ∀ answer, t.known? = some answer → ∃ origin, answer = .ok ⟨origin, entry.analytics⟩
  computations_eq : m.engine.counters.computations = base.computations + computations
  cacheHits_eq : m.engine.counters.cacheHits + computations = base.cacheHits + m.knowing
  others : m.engine.counters.staleFallbacks = base.staleFallbacks ∧ m.engine.counters.failures = base.failures

section Calm

variable {id : String} {now : K} {base : Counters} {made : Nat} {entry : Entry K} {m : Machine K}

theorem forall_mem_begin {P : Thread K → Prop} (h : ∀ t ∈ m.threads, P t) {call : Call} (hnew : P (Thread.begin call)) :
    ∀ t ∈ (m.apply (.begin call)).threads, P t :=
  List.forall_mem_append.mpr ⟨h, List.forall_mem_singleton.mpr hnew⟩

theorem Asking.apply (h : m.Asking id now) {move : Move K} (hmove : Calm id now move) :
    (m.apply move).Asking id now := by
  cases move with
  | begin call =>
    exact ⟨forall_mem_begin h.calls hmove, h.clock⟩
  | advance i =>
    cases hi : m.threads[i]? with
    | none => exact (apply_advance_of_none hi).symm ▸ h
    | some t =>
      rw [apply_advance hi]
      have hcall : (t.advance m.engine m.sources).1.call = ⟨id, false⟩ := h.calls t (List.mem_of_getElem? hi)
      exact ⟨forall_mem_set h.calls hcall i, h.clock⟩
  | invalidate other => exact ⟨h.calls, h.clock⟩
  | invalidateAll => exact ⟨h.calls, h.clock⟩
  | surround s => exact ⟨h.calls, hmove⟩

theorem knowing_begin (m : Machine K) (call : Call) : (m.apply (.begin call)).knowing = m.knowing := by
  show (m.threads ++ [Thread.begin call]).countP _ = _
  rw [List.countP_append]
  rfl

omit [Scalar K] in
theorem knowing_set {i : Nat} {t u : Thread K} (hi : m.threads[i]? = some t) :
    (m.threads.set i u).countP (fun v => v.known?.isSome) + t.known?.isSome.toNat =
      m.knowing + u.known?.isSome.toNat := by
  obtain ⟨hlt, hget⟩ := List.getElem?_eq_some_iff.mp hi
  have hpos : t.known?.isSome → 0 < m.threads.countP fun v => v.known?.isSome := fun hsome =>
    List.countP_pos_iff.mpr ⟨t, List.mem_of_getElem? hi, hsome⟩
  unfold knowing
  rw [List.countP_set hlt, hget]
  generalize m.threads.countP (fun v => v.known?.isSome) = n at hpos ⊢
  generalize t.known?.isSome = before at hpos ⊢
  generalize u.known?.isSome = after
  cases before with
  | false => cases after <;> simp
  | true =>
    have := hpos rfl
    cases after <;> simp <;> omega

theorem Served.advance (h : m.Served id now base made entry) (i : Nat) :
    (m.apply (.advance i)).Served id now base made entry := by
  cases hi : m.threads[i]? with
  | none => exact (apply_advance_of_none hi).symm ▸ h
  | some t =>
    have hmem := List.mem_of_getElem? hi
    have hcall := h.calls t hmem
    have hasking : (m.apply (.advance i)).Asking id now := h.toAsking.apply trivial
    obtain ⟨hcache, hconfig, hidle, hstep⟩ := Thread.advance_of_fresh (t := t) (s := m.sources) (by rw [hcall])
      (by rw [hcall]; exact h.get) (by rw [h.clock]; exact h.fresh) (h.idle t hmem)
    rw [apply_advance hi] at hasking ⊢
    refine ⟨hasking, ?_, ?_, ?_, ?_, ?_, ?_, ?_⟩
    · show (t.advance m.engine m.sources).2.cache.get? id = _
      rw [hcache]
      exact h.get
    · exact (Engine.isFresh_of_config hconfig now entry).trans h.fresh
    · exact forall_mem_set h.idle hidle i
    · refine forall_mem_set h.replies (fun answer hanswer => ?_) i
      rcases hstep with ⟨-, hknown, -⟩ | ⟨hknown, -⟩
      · rw [hknown] at hanswer
        cases hanswer
        exact ⟨.cached, rfl⟩
      · exact h.replies t hmem answer (hknown ▸ hanswer)
    · show (t.advance m.engine m.sources).2.counters.computations = _
      rcases hstep with ⟨-, -, hcounters⟩ | ⟨-, hcounters⟩ <;> rw [hcounters] <;> exact h.computations_eq
    · show (t.advance m.engine m.sources).2.counters.cacheHits + made = base.cacheHits +
        (m.threads.set i (t.advance m.engine m.sources).1).countP _
      have hhits := h.cacheHits_eq
      have hknowing := knowing_set (u := (t.advance m.engine m.sources).1) hi
      rcases hstep with ⟨hunknown, hknown, hcounters⟩ | ⟨hknown, hcounters⟩
      · rw [hunknown, hknown, Option.isSome_none, Option.isSome_some, Bool.toNat_false, Bool.toNat_true] at hknowing
        rw [hcounters]
        dsimp only
        omega
      · rw [hknown] at hknowing
        rw [hcounters]
        omega
    · show (t.advance m.engine m.sources).2.counters.staleFallbacks = _ ∧
        (t.advance m.engine m.sources).2.counters.failures = _
      rcases hstep with ⟨-, -, hcounters⟩ | ⟨-, hcounters⟩ <;> rw [hcounters] <;> exact h.others

theorem Served.apply (h : m.Served id now base made entry) {move : Move K} (hmove : Calm id now move) :
    (m.apply move).Served id now base made entry := by
  have hasking := h.toAsking.apply hmove
  cases move with
  | begin call =>
    refine ⟨hasking, h.get, h.fresh, ?_, ?_, h.computations_eq, ?_, h.others⟩
    · exact forall_mem_begin h.idle rfl
    · exact forall_mem_begin h.replies fun answer hanswer => by cases hanswer
    · rw [knowing_begin]
      exact h.cacheHits_eq
  | advance i => exact h.advance i
  | invalidate other =>
    refine ⟨hasking, ?_, h.fresh, h.idle, h.replies, h.computations_eq, h.cacheHits_eq, h.others⟩
    exact (Cache.get?_drop_of_ne (Ne.symm hmove) _).trans h.get
  | invalidateAll => exact hmove.elim
  | surround s => exact ⟨hasking, h.get, h.fresh, h.idle, h.replies, h.computations_eq, h.cacheHits_eq, h.others⟩

/-- The put of the only thread that recomputes. -/
theorem Pending.conclude (h : m.Pending id now base) (hm : m.Reachable fun _ => True)
    (hself : Scalar.lt (now - now) m.engine.config.refreshSeconds = true) {i : Nat} {ticket : Ticket}
    {previous : Option (Entry K)} (hi : m.threads[i]? = some ⟨⟨id, false⟩, .computed ticket previous (.ok entry)⟩)
    (hmonotonic : entry.computedMonotonic = now) : (m.apply (.advance i)).Served id now base 1 entry := by
  obtain ⟨hlt, -⟩ := List.getElem?_eq_some_iff.mp hi
  have hasking : (m.apply (.advance i)).Asking id now := h.toAsking.apply trivial
  have hzero : m.knowing = 0 := by
    refine List.countP_eq_zero.mpr fun t ht => ?_
    rw [h.unknown t ht]
    nofun
  rw [apply_advance hi] at hasking ⊢
  refine ⟨hasking, hm.wellFormed.get?_put_self id entry, ?_, ?_, ?_, ?_, ?_, ?_⟩
  · show Scalar.lt (now - entry.computedMonotonic) m.engine.config.refreshSeconds = true
    rw [hmonotonic]
    exact hself
  · intro t ht
    obtain ⟨j, hj⟩ := List.mem_iff_getElem?.mp ht
    by_cases hij : i = j
    · subst hij
      rw [List.getElem?_set_self hlt] at hj
      cases hj
      rfl
    · rw [List.getElem?_set_ne hij] at hj
      have hnone : t.recomputes ≠ true := fun hrecomputes =>
        hij (hm.eq_of_inside hi hj rfl (Thread.isSome_inside?_of_recomputes hrecomputes)
          (congrArg Call.id (h.calls t (List.mem_of_getElem? hj)).symm))
      exact Bool.eq_false_iff.mpr hnone
  · intro t ht answer hanswer
    rcases List.mem_or_eq_of_mem_set ht with ht | rfl
    · rw [h.unknown t ht] at hanswer
      cases hanswer
    · cases hanswer
      exact ⟨.computed, rfl⟩
  · show m.engine.counters.computations + 1 = base.computations + 1
    rw [h.counters]
  · show m.engine.counters.cacheHits + 1 = base.cacheHits + (m.threads.set i _).countP _
    rw [h.counters, ← Nat.add_zero (List.countP _ _)]
    exact congrArg (base.cacheHits + ·) ((knowing_set hi).trans (congrArg (· + 1) hzero)).symm
  · show m.engine.counters.staleFallbacks = _ ∧ m.engine.counters.failures = _
    rw [h.counters]
    exact ⟨rfl, rfl⟩

/-- A step before the first put leads to it or not. A computation that is made at this step has to succeed. -/
theorem Pending.advance (h : m.Pending id now base) (hm : m.Reachable fun _ => True)
    (hself : Scalar.lt (now - now) m.engine.config.refreshSeconds = true) {i : Nat}
    (hcompute : ∀ ticket previous, m.threads[i]? = some ⟨⟨id, false⟩, .computing ticket previous⟩ →
      ∃ entry, Entry.compute m.sources m.engine.config m.engine.stopped id previous = .ok entry) :
    (m.apply (.advance i)).Pending id now base ∨ ∃ entry, (m.apply (.advance i)).Served id now base 1 entry := by
  cases hi : m.threads[i]? with
  | none =>
    rw [apply_advance_of_none hi]
    exact .inl h
  | some t =>
    have hmem := List.mem_of_getElem? hi
    have hcall := h.calls t hmem
    by_cases hcomputed : ∃ ticket previous outcome, t.stage = .computed ticket previous outcome
    · obtain ⟨ticket, previous, outcome, hstage⟩ := hcomputed
      obtain ⟨entry, rfl, hmonotonic⟩ := h.outcomes t hmem ticket previous outcome hstage
      have ht : t = ⟨⟨id, false⟩, .computed ticket previous (.ok entry)⟩ := by rw [← hcall, ← hstage]
      exact .inr ⟨entry, h.conclude hm hself (ht ▸ hi) hmonotonic⟩
    · have hnot : ∀ ticket previous outcome, t.stage ≠ .computed ticket previous outcome :=
        fun ticket previous outcome hstage => hcomputed ⟨ticket, previous, outcome, hstage⟩
      have hstale : ∀ entry, m.engine.cache.get? t.call.id = some entry →
          m.engine.isFresh m.sources.monotonic entry = false := by
        rw [hcall, h.clock]
        exact h.stale
      obtain ⟨hcache, hconfig, hcounters, hunknown⟩ := Thread.advance_of_stale hstale (h.unknown t hmem) hnot
      have hasking : (m.apply (.advance i)).Asking id now := h.toAsking.apply trivial
      rw [apply_advance hi] at hasking ⊢
      refine .inl ⟨hasking, ?_, ?_, ?_, hcounters.trans h.counters⟩
      · intro entry hget
        have hget' : m.engine.cache.get? id = some entry := hcache ▸ hget
        exact (Engine.isFresh_of_config hconfig now entry).trans (h.stale entry hget')
      · exact forall_mem_set h.unknown hunknown i
      · refine forall_mem_set h.outcomes (fun ticket previous outcome hstage => ?_) i
        -- The thread has just computed.
        have hadvance : (t.advance m.engine m.sources).1 = ⟨⟨id, false⟩, .computed ticket previous outcome⟩ := by
          rw [← hstage, ← hcall]
          rfl
        obtain ⟨ht, houtcome⟩ := Thread.of_advance_eq_computed hadvance
        obtain ⟨entry, hentry⟩ := hcompute ticket previous (ht ▸ hi)
        refine ⟨entry, houtcome.trans hentry, ?_⟩
        rw [Entry.computedMonotonic_of_compute hentry, h.clock]

theorem Pending.apply (h : m.Pending id now base) (hm : m.Reachable fun _ => True)
    (hself : Scalar.lt (now - now) m.engine.config.refreshSeconds = true) {move : Move K} (hmove : Calm id now move)
    (hcompute : ∀ i ticket previous, move = .advance i →
      m.threads[i]? = some ⟨⟨id, false⟩, .computing ticket previous⟩ →
      ∃ entry, Entry.compute m.sources m.engine.config m.engine.stopped id previous = .ok entry) :
    (m.apply move).Pending id now base ∨ ∃ entry, (m.apply move).Served id now base 1 entry := by
  have hasking := h.toAsking.apply hmove
  cases move with
  | begin call =>
    refine .inl ⟨hasking, h.stale, ?_, ?_, h.counters⟩
    · exact forall_mem_begin h.unknown rfl
    · exact forall_mem_begin h.outcomes fun _ _ _ hstage => by cases hstage
  | advance i => exact h.advance hm hself fun ticket previous hi => hcompute i ticket previous rfl hi
  | invalidate other =>
    refine .inl ⟨hasking, ?_, h.unknown, h.outcomes, h.counters⟩
    intro entry hget
    exact h.stale entry ((Cache.get?_drop_of_ne (Ne.symm hmove) _).symm.trans hget)
  | invalidateAll => exact hmove.elim
  | surround s => exact .inl ⟨hasking, h.stale, h.unknown, h.outcomes, h.counters⟩

/-- Once all threads have finished, each of them has been answered by the entry. -/
theorem Served.answers (h : m.Served id now base made entry) (hdone : ∀ t ∈ m.threads, t.answer?.isSome) :
    ∀ t ∈ m.threads, ∃ origin, t.answer? = some (.ok ⟨origin, entry.analytics⟩) := by
  intro t ht
  obtain ⟨answer, hanswer⟩ := Option.isSome_iff_exists.mp (hdone t ht)
  obtain ⟨origin, rfl⟩ := h.replies t ht answer ((Thread.known?_of_answer? (hdone t ht)).trans hanswer)
  exact ⟨origin, hanswer⟩

theorem Served.counters (h : m.Served id now base 1 entry) (hdone : ∀ t ∈ m.threads, t.answer?.isSome)
    (hpos : 0 < m.threads.length) : m.engine.counters = { base with
      computations := base.computations + 1
      cacheHits := base.cacheHits + (m.threads.length - 1) } := by
  have hall : m.knowing = m.threads.length := by
    refine List.countP_eq_length.mpr fun t ht => ?_
    rw [Thread.known?_of_answer? (hdone t ht)]
    exact hdone t ht
  have hhits := h.cacheHits_eq
  have hcomputations := h.computations_eq
  obtain ⟨hfallbacks, hfailures⟩ := h.others
  rw [hall] at hhits
  generalize m.engine.counters = counters at hhits hcomputations hfallbacks hfailures ⊢
  obtain ⟨hits, computations, fallbacks, failures⟩ := counters
  rw [Counters.mk.injEq]
  exact ⟨by dsimp only at hhits; omega, hcomputations, hfallbacks, hfailures⟩

end Calm

section Run

variable {e : Engine K} {s : Sources K} {moves : List (Move K)} {id : String} {now : K} {base : Counters}

theorem Served.after {m : Machine K} {made : Nat} {entry : Entry K} (h : m.Served id now base made entry)
    (hcalm : ∀ move ∈ moves, Calm id now move) (n : Nat) : (m.after moves n).Served id now base made entry := by
  induction n with
  | zero => exact h
  | succ n ih =>
    rcases m.after_succ_cases moves n with heq | ⟨move, hmem, -, heq⟩
    · rw [heq]
      exact ih
    · rw [heq]
      exact ih.apply (hcalm move hmem)

theorem pending_or_served (he : e.Reachable fun _ => True) (hstart : (start e s).Pending id now base)
    (hself : Scalar.lt (now - now) e.config.refreshSeconds = true) (hcalm : ∀ move ∈ moves, Calm id now move)
    (hcompute : ∀ n i ticket previous, (start e s).Takes moves n i ⟨⟨id, false⟩, .computing ticket previous⟩ →
      ∃ entry, Entry.compute ((start e s).after moves n).sources ((start e s).after moves n).engine.config
        ((start e s).after moves n).engine.stopped id previous = .ok entry) (n : Nat) :
    ((start e s).after moves n).Pending id now base ∨
      ∃ entry, ((start e s).after moves n).Served id now base 1 entry := by
  induction n with
  | zero => exact .inl hstart
  | succ n ih =>
    rcases after_succ_cases (start e s) moves n with heq | ⟨move, hmem, hmove, heq⟩
    · rw [heq]
      exact ih
    · rw [heq]
      rcases ih with hpending | ⟨entry, hserved⟩
      · refine hpending.apply (after_reachable he s moves n) ?_ (hcalm move hmem) ?_
        · rw [config_after he]
          exact hself
        · rintro i ticket previous rfl hi
          exact hcompute n i ticket previous ⟨hmove, hi⟩
      · exact .inr ⟨entry, hserved.apply (hcalm move hmem)⟩

/-- While the clock stands still, calls for one connection of which one computes, and none in vain, are all answered by
the one entry that this computation has put. -/
theorem one_computation_answers_all (he : e.Reachable fun _ => True)
    (hself : Scalar.lt (s.monotonic - s.monotonic) e.config.refreshSeconds = true)
    (hcalm : ∀ move ∈ moves, Calm id s.monotonic move)
    (hcompute : ∀ n i ticket previous, (start e s).Takes moves n i ⟨⟨id, false⟩, .computing ticket previous⟩ →
      ∃ entry, Entry.compute ((start e s).after moves n).sources ((start e s).after moves n).engine.config
        ((start e s).after moves n).engine.stopped id previous = .ok entry)
    (hmade : ∃ n i ticket previous, (start e s).Takes moves n i ⟨⟨id, false⟩, .computing ticket previous⟩)
    (hdone : ∀ t ∈ ((start e s).run moves).threads, t.answer?.isSome) :
    ∃ entry : Entry K, (∀ t ∈ ((start e s).run moves).threads, ∃ origin, t.answer? = some (.ok ⟨origin, entry.analytics⟩)) ∧
      ((start e s).run moves).engine.counters = { e.counters with
        computations := e.counters.computations + 1
        cacheHits := e.counters.cacheHits + (((start e s).run moves).threads.length - 1) } := by
  obtain ⟨n, i, ticket, previous, hmade⟩ := hmade
  -- The thread that computes does not go away.
  have hpos : 0 < ((start e s).run moves).threads.length := by
    obtain ⟨hmove, -⟩ := List.getElem?_eq_some_iff.mp hmade.1
    obtain ⟨hthread, -⟩ := List.getElem?_eq_some_iff.mp hmade.2
    have hle : ((start e s).after moves n).threads.length ≤ ((start e s).after moves moves.length).threads.length :=
      length_le_after (Nat.le_of_lt hmove)
    rw [after_length] at hle
    exact Nat.lt_of_le_of_lt (Nat.zero_le i) (Nat.lt_of_lt_of_le hthread hle)
  have hasking : (start e s).Asking id s.monotonic := ⟨fun t ht => absurd ht List.not_mem_nil, rfl⟩
  by_cases hfresh : ∃ entry, e.cache.get? id = some entry ∧ e.isFresh s.monotonic entry = true
  · -- Then no thread would ever recompute.
    obtain ⟨entry, hget, hisFresh⟩ := hfresh
    have hstart : (start e s).Served id s.monotonic e.counters 0 entry :=
      ⟨hasking, hget, hisFresh, fun t ht => absurd ht List.not_mem_nil, fun t ht => absurd ht List.not_mem_nil, rfl, rfl,
        rfl, rfl⟩
    have hidle := (hstart.after hcalm n).idle _ (List.mem_of_getElem? hmade.2)
    cases hidle
  have hstart : (start e s).Pending id s.monotonic e.counters := by
    refine ⟨hasking, ?_, fun t ht => absurd ht List.not_mem_nil, fun t ht => absurd ht List.not_mem_nil, rfl⟩
    intro entry hget
    exact Bool.eq_false_iff.mpr fun hisFresh => hfresh ⟨entry, hget, hisFresh⟩
  have hend := pending_or_served he hstart hself hcalm hcompute moves.length
  rw [after_length] at hend
  rcases hend with hpending | ⟨entry, hserved⟩
  · obtain ⟨t, ht⟩ := List.exists_mem_of_length_pos hpos
    have hsome := hdone t ht
    rw [← Thread.known?_of_answer? hsome, hpending.unknown t ht] at hsome
    cases hsome
  · exact ⟨entry, hserved.answers hdone, hserved.counters hdone hpos⟩

end Run

/-! ## Recomputations and the clock -/

section Clock

variable {e : Engine Float} {s : Sources Float} {moves : List (Move Float)} {id : String}

/-- The clock at a position of a run. -/
def reading (m : Machine Float) (moves : List (Move Float)) (n : Nat) : Float := (m.after moves n).sources.monotonic

/-- A clock that shows finite numbers and is never set back. -/
structure Steady (m : Machine Float) (moves : List (Move Float)) : Prop where
  finite : ∀ n, (m.reading moves n).isFinite = true
  le_succ : ∀ n, m.reading moves n ≤ m.reading moves (n + 1)

theorem Steady.of_forall_le {m : Machine Float} (hfinite : ∀ n ≤ moves.length, (m.reading moves n).isFinite = true)
    (hle : ∀ n < moves.length, m.reading moves n ≤ m.reading moves (n + 1)) : m.Steady moves := by
  have hend : ∀ n, moves.length ≤ n → m.reading moves n = m.reading moves moves.length := by
    intro n hn
    unfold reading after
    rw [List.take_of_length_le hn, List.take_length]
  refine ⟨?_, ?_⟩
  · intro n
    rcases Nat.le_total n moves.length with hn | hn
    · exact hfinite n hn
    · rw [hend n hn]
      exact hfinite _ (Nat.le_refl _)
  · intro n
    rcases Nat.lt_or_ge n moves.length with hn | hn
    · exact hle n hn
    · rw [hend n hn, hend (n + 1) (Nat.le_succ_of_le hn)]
      exact Binary64.le_refl_of_isFinite (hfinite _ (Nat.le_refl _))

theorem Steady.le {m : Machine Float} (h : m.Steady moves) {a b : Nat} (hab : a ≤ b) :
    m.reading moves a ≤ m.reading moves b := by
  induction b with
  | zero =>
    rw [Nat.le_zero.mp hab]
    exact Binary64.le_refl_of_isFinite (h.finite 0)
  | succ b ih =>
    rcases Nat.le_succ_iff.mp hab with hab | rfl
    · exact Binary64.le_trans_of_isFinite (h.finite a) (h.finite b) (h.finite (b + 1)) (ih hab) (h.le_succ b)
    · exact Binary64.le_refl_of_isFinite (h.finite (b + 1))

theorem Recomputation.computedMonotonic_eq {m : Machine Float} (r : m.Recomputation moves id) :
    r.entry.computedMonotonic = m.reading moves r.fetch := Entry.computedMonotonic_of_compute r.compute_eq

/-- What is cached after a recomputation has put its entry was not computed before this entry, if there is anything. -/
theorem exists_fetch_of_get? (he : e.Reachable fun _ => True) (r : (start e s).Recomputation moves id) {n : Nat}
    (hn : r.put < n) {entry : Entry Float} (hget : ((start e s).after moves n).engine.cache.get? id = some entry) :
    ∃ k, r.fetch ≤ k ∧ entry.computedMonotonic = (start e s).reading moves k := by
  by_cases hown : ((start e s).after moves (r.put + 1)).engine.cache.get? id = some entry
  · rw [r.get?_put he] at hown
    cases hown
    exact ⟨r.fetch, Nat.le_refl _, r.computedMonotonic_eq⟩
  · obtain ⟨later, hput, -, rfl⟩ := exists_recomputation_of_get? he hn hown hget
    have hread := Recomputation.put_lt_read he r later hput
    have hfetch := later.read_lt_fetch
    have hrput := r.fetch_lt_put
    exact ⟨later.fetch, by omega, later.computedMonotonic_eq⟩

/-- A call that does not insist recomputes only when the cached entry is a refresh interval old, and that one is not older
than an entry put before it. Differences of doubles keep this order. -/
theorem refresh_le_sub (he : e.Reachable fun _ => True) (hclock : (start e s).Steady moves)
    (hnumber : e.config.refreshSeconds.isNaN = false) (r₁ r₂ : (start e s).Recomputation moves id)
    (hput : r₁.put < r₂.put) (hasked : r₂.forced = false)
    (hkept : ((start e s).after moves r₂.read).engine.cache.get? id ≠ none) :
    e.config.refreshSeconds ≤ r₂.entry.computedMonotonic - r₁.entry.computedMonotonic := by
  obtain ⟨entry, hget⟩ := Option.ne_none_iff_exists'.mp hkept
  obtain ⟨k, hk, hentry⟩ := exists_fetch_of_get? he r₁ (Recomputation.put_lt_read he r₁ r₂ hput) hget
  have hold := Thread.hit?_eq_none.mp r₂.hit?_eq_none hasked entry hget
  unfold Engine.isFresh at hold
  rw [config_after he, hentry] at hold
  rw [r₁.computedMonotonic_eq, r₂.computedMonotonic_eq]
  exact Binary64.le_sub_of_not_sub_lt (hclock.finite r₂.read) (hclock.finite k) (hclock.finite r₂.fetch)
    (hclock.finite r₁.fetch) hnumber (hclock.le (Nat.le_of_lt r₂.read_lt_fetch)) (hclock.le hk)
    (of_decide_eq_false hold)

/-- Threads that share an engine, in any order of their steps and with invalidations and evictions in between, while the
clock is not set back. -/
theorem single_flight (he : e.Reachable fun _ => True) (hclock : (start e s).Steady moves) (id : String) :
    -- At any moment at most one thread recomputes an id.
    (∀ (n i j : Nat) (t u : Thread Float), ((start e s).after moves n).threads[i]? = some t →
      ((start e s).after moves n).threads[j]? = some u → t.call.id = id → u.call.id = id →
      t.recomputes = true → u.recomputes = true → i = j) ∧
    -- A recomputation that a call does not insist on comes a refresh interval after the ones before, as long as their
    -- entry, or a later one in its place, has not been dropped when the cache is read again.
    (∀ r₁ r₂ : (start e s).Recomputation moves id, r₁.put < r₂.put → r₂.forced = false →
      ((start e s).after moves r₂.read).engine.cache.get? id ≠ none → e.config.refreshSeconds.isNaN = false →
      e.config.refreshSeconds ≤ r₂.entry.computedMonotonic - r₁.entry.computedMonotonic) ∧
    -- So while the clock stands still, calls of which one computes, and none in vain, all return the same analytics.
    (0 < e.config.refreshSeconds → (∀ move ∈ moves, Calm id s.monotonic move) →
      (∃ n i ticket previous, (start e s).Takes moves n i ⟨⟨id, false⟩, .computing ticket previous⟩) →
      (∀ n i ticket previous, (start e s).Takes moves n i ⟨⟨id, false⟩, .computing ticket previous⟩ →
        ∃ entry, Entry.compute ((start e s).after moves n).sources ((start e s).after moves n).engine.config
          ((start e s).after moves n).engine.stopped id previous = .ok entry) →
      (∀ t ∈ ((start e s).run moves).threads, t.answer?.isSome) →
      ∃ entry : Entry Float,
        (∀ t ∈ ((start e s).run moves).threads, ∃ origin, t.answer? = some (.ok ⟨origin, entry.analytics⟩)) ∧
        ((start e s).run moves).engine.counters = { e.counters with
          computations := e.counters.computations + 1
          cacheHits := e.counters.cacheHits + (((start e s).run moves).threads.length - 1) }) := by
  refine ⟨?_, ?_, ?_⟩
  · intro n i j t u hi hj htid huid ht hu
    exact (after_reachable he s moves n).eq_of_inside hi hj (Thread.isSome_inside?_of_recomputes ht)
      (Thread.isSome_inside?_of_recomputes hu) (htid.trans huid.symm)
  · intro r₁ r₂ hput hasked hkept hnumber
    exact refresh_le_sub he hclock hnumber r₁ r₂ hput hasked hkept
  · intro hpos hcalm hmade hcompute hdone
    have hself : s.monotonic - s.monotonic < e.config.refreshSeconds := Binary64.sub_self_lt (hclock.finite 0) hpos
    exact one_computation_answers_all he (decide_eq_true hself) hcalm hcompute hmade hdone

end Clock

/-- A thread computes, and a minute later another one finds the entry too old. -/
def minuteApart : List (Move Float) :=
  .begin ⟨"orders", false⟩ :: List.replicate 8 (.advance 0) ++
    [.surround { Sources.quiet with monotonic := 60 }, .begin ⟨"orders", false⟩] ++ List.replicate 8 (.advance 1)

theorem single_flight_of_orders :
    (∃ entry : Entry Float, ∀ t ∈ ((start .cold .quiet).run (overlapping [⟨"orders", false⟩, ⟨"orders", false⟩])).threads,
      ∃ origin, t.answer? = some (.ok ⟨origin, entry.analytics⟩)) ∧
    ∃ r₁ r₂ : (start .cold .quiet).Recomputation minuteApart "orders", r₁.put < r₂.put ∧ r₂.forced = false ∧
      Engine.cold.config.refreshSeconds ≤ r₂.entry.computedMonotonic - r₁.entry.computedMonotonic := by
  have hcold : Engine.cold.Reachable fun _ => True := .create Engine.create_cold
  refine ⟨?_, ?_⟩
  · have hsteady : (start .cold .quiet).Steady (overlapping [⟨"orders", false⟩, ⟨"orders", false⟩]) :=
      Steady.of_forall_le (by decide +kernel) (by decide +kernel)
    have hcalm : ∀ move ∈ overlapping [⟨"orders", false⟩, ⟨"orders", false⟩],
        Calm "orders" (Sources.quiet).monotonic move := calm_overlapping (by decide)
    have hcompute : ∀ n i ticket previous, (start Engine.cold Sources.quiet).Takes
        (overlapping [⟨"orders", false⟩, ⟨"orders", false⟩]) n i ⟨⟨"orders", false⟩, .computing ticket previous⟩ →
        ∃ entry, Entry.compute
          ((start .cold .quiet).after (overlapping [⟨"orders", false⟩, ⟨"orders", false⟩]) n).sources
          ((start .cold .quiet).after (overlapping [⟨"orders", false⟩, ⟨"orders", false⟩]) n).engine.config
          ((start .cold .quiet).after (overlapping [⟨"orders", false⟩, ⟨"orders", false⟩]) n).engine.stopped
          "orders" previous = .ok entry := by
      rintro n i ticket previous ⟨hmove, hi⟩
      obtain ⟨hlt, -⟩ := List.getElem?_eq_some_iff.mp hmove
      have hbound : n < 18 := hlt
      interval_cases n <;> cases hmove <;> cases hi
      exact ⟨_, rfl⟩
    obtain ⟨entry, hanswers, -⟩ := (single_flight hcold hsteady "orders").2.2 (by decide +kernel) hcalm
      ⟨8, 0, _, _, rfl, rfl⟩ hcompute (by decide +kernel)
    exact ⟨entry, hanswers⟩
  · have hsteady : (start .cold .quiet).Steady minuteApart := Steady.of_forall_le (by decide +kernel) (by decide +kernel)
    have hfirst : ∃ ticket previous entry, (start Engine.cold Sources.quiet).Takes minuteApart 6 0
        ⟨⟨"orders", false⟩, .computed ticket previous (.ok entry)⟩ := ⟨_, _, _, rfl, rfl⟩
    set_option maxRecDepth 4000 in
    have hsecond : ∃ ticket previous entry, (start Engine.cold Sources.quiet).Takes minuteApart 16 1
        ⟨⟨"orders", false⟩, .computed ticket previous (.ok entry)⟩ := ⟨_, _, _, rfl, rfl⟩
    have hcached : ∀ n < 16, 6 < n →
        (((start Engine.cold Sources.quiet).after minuteApart n).engine.cache.get? "orders").isSome = true := by
      decide +kernel
    obtain ⟨ticket₁, previous₁, entry₁, hfirst⟩ := hfirst
    obtain ⟨ticket₂, previous₂, entry₂, hsecond⟩ := hsecond
    obtain ⟨r₁, -, hput₁, -, -⟩ := exists_recomputation (Nat.zero_le 6) rfl hfirst
    obtain ⟨r₂, -, hput₂, -, hasked⟩ := exists_recomputation (Nat.zero_le 16) rfl hsecond
    have hput : r₁.put < r₂.put := by rw [hput₁, hput₂]; decide
    have hread := Recomputation.put_lt_read hcold r₁ r₂ hput
    have hfetch := r₂.read_lt_fetch
    have hlast := r₂.fetch_lt_put
    have hkept := hcached r₂.read (by omega) (by omega)
    exact ⟨r₁, r₂, hput, hasked, (single_flight hcold hsteady "orders").2.1 r₁ r₂ hput hasked
      (Option.isSome_iff_ne_none.mp hkept) (by decide +kernel)⟩

end Machine

end Backpressure
