import Backpressure.Proofs.Exclusion
import Backpressure.Proofs.Failures
import Backpressure.Proofs.Independence

/-!
# Passes of several workers

A pass refreshes the connections of a list with some workers, each of which takes the next id as soon as it has finished
with the one before. The directory, the history and the clocks may change before every step of every worker.

* `Refreshed.Fate` : what can become of refreshing a connection;
* `Stage.toGo` : how many steps of a call are left, `Thread.toGo_advance_lt` : one that is not kept out of its slot
  takes one of them;
* `Pool`, `Pool.Step`, `Pool.Steps` : workers that refresh the connections of a list;
* `Pool.Steady` : what every step preserves, `Pool.Steady.exists_step` : until all is done there is a next step;
* `Pool.passes_end` : all connections are refreshed after finitely many steps, and are counted unless the error of one
  of them is none of the analytics.
-/

namespace Backpressure
open Number

variable {K : Type}

theorem Error.isAnalytics_of_isDocumented {error : Error} (h : error.isDocumented = true) :
    error.isAnalytics = true := by
  cases error <;> first | rfl | cases h

theorem Engine.conclude_stopped (e : Engine K) (id : String) (previous : Option (Entry K))
    (outcome : Except Error (Entry K)) : (e.conclude id previous outcome).2.stopped = e.stopped := by
  have hspec := conclude_spec e id previous outcome
  generalize e.conclude id previous outcome = result at hspec ⊢
  obtain ⟨answer, after⟩ := result
  cases hspec <;> rfl

/-! ## What can become of refreshing a connection -/

section

variable [Scalar K]

/-- What can become of refreshing a connection: a value is computed, or the one from before is returned as stale, or
there is an error of its analytics, or one of another kind, which is raised although directory and history have
answered. -/
inductive Refreshed.Fate (config : EngineConfig K) (stopped : Bool) (id : String) : Except Error (Reply K) → Prop
  | computed {value : Analytics K} (h : value.stale = false) : Fate config stopped id (.ok ⟨.computed, value⟩)
  | stale {value : Analytics K} (h : value.stale = true) : Fate config stopped id (.ok ⟨.stale, value⟩)
  | failed {error : Error} (h : error.isAnalytics = true) : Fate config stopped id (.error error)
  | fatal {error : Error} {s : Sources K} {previous : Option (Entry K)} (h : error.isAnalytics = false)
      (hcompute : Entry.compute s config stopped id previous = .error error)
      (hanswered : Entry.Answered s config stopped id) : Fate config stopped id (.error error)

theorem Engine.fate_of_conclude (e : Engine K) (s : Sources K) (config : EngineConfig K) (stopped : Bool) (id : String)
    (previous : Option (Entry K)) :
    Refreshed.Fate config stopped id (e.conclude id previous (Entry.compute s config stopped id previous)).1 := by
  have hspec := conclude_spec e id previous (Entry.compute s config stopped id previous)
  generalize houtcome : Entry.compute s config stopped id previous = outcome at hspec ⊢
  generalize e.conclude id previous outcome = result at hspec ⊢
  obtain ⟨answer, after⟩ := result
  have hraised : ∀ error, outcome = .error error → Refreshed.Fate config stopped id (.error error) := by
    rintro error rfl
    cases hanalytics : error.isAnalytics with
    | true => exact .failed hanalytics
    | false =>
      have hown : error.isDocumented = false := by
        cases hdocumented : error.isDocumented with
        | false => rfl
        | true => exact (Error.isAnalytics_of_isDocumented hdocumented).symm.trans hanalytics
      exact .fatal hanalytics houtcome (Entry.answered_of_undocumented houtcome hown)
  cases hspec with
  | computed entry => exact .computed (Entry.stale_eq_false_of_compute houtcome)
  | stale _ _ => exact .stale rfl
  | unknown _ => exact hraised _ rfl
  | failed _ _ => exact hraised _ rfl
  | crashed _ _ => exact hraised _ rfl

end

/-! ## The steps of a call -/

/-- How many steps of a call are left at most. -/
def Stage.toGo : Stage K → Nat
  | .called => 8
  | .missed => 7
  | .waiting _ => 6
  | .inside _ => 5
  | .computing _ _ => 4
  | .computed _ _ _ => 3
  | .leaving _ _ => 2
  | .released _ _ => 1
  | .finished _ => 0

/-- A thread that is neither finished nor kept out of its slot takes a step towards the end of its call. -/
theorem Thread.toGo_advance_lt [Scalar K] {m : Machine K} (h : m.workshop.Orderly) {t : Thread K} (ht : t ∈ m.threads)
    (hpending : t.answer?.isSome = false) (hfree : ∀ ticket, t.stage = .waiting ticket →
      (m.engine.slots.acquire? ticket).isSome = true) (s : Sources K) :
    (t.advance m.engine s).1.stage.toGo < t.stage.toGo := by
  have hworker : t.worker ∈ m.workshop.workers := List.mem_map_of_mem ht
  obtain ⟨call, stage⟩ := t
  unfold advance step
  cases stage with
  | called =>
    dsimp only
    split <;> simp [Stage.toGo]
  | missed => simp [Stage.toGo]
  | waiting ticket =>
    obtain ⟨slots, hslots⟩ := Option.isSome_iff_exists.mp (hfree ticket rfl)
    dsimp only
    rw [hslots]
    simp [Stage.toGo]
  | inside ticket =>
    dsimp only
    split <;> simp [Stage.toGo]
  | computing ticket previous => simp [Stage.toGo]
  | computed ticket previous outcome => simp [Stage.toGo]
  | leaving ticket answer =>
    obtain ⟨slots, hslots⟩ := Option.isSome_iff_exists.mp (h.release_isSome hworker (t := ticket) rfl)
    dsimp only
    rw [show m.engine.slots.release? ticket = some slots from hslots]
    simp [Stage.toGo]
  | released ticket answer =>
    obtain ⟨slots, hslots⟩ := Option.isSome_iff_exists.mp (h.deregister_isSome hworker (t := ticket) rfl)
    dsimp only
    rw [show m.engine.slots.deregister? ticket = some slots from hslots]
    simp [Stage.toGo]
  | finished answer => cases hpending

/-- A call to refresh a connection, as far as it has come. -/
def Thread.Refreshes [Scalar K] (config : EngineConfig K) (stopped : Bool) (t : Thread K) : Prop :=
  t.call.forced = true ∧
    match t.stage with
    | .computed _ previous outcome => ∃ s, outcome = Entry.compute s config stopped t.call.id previous
    | .leaving _ answer | .released _ answer | .finished answer => Refreshed.Fate config stopped t.call.id answer
    | _ => True

theorem Thread.Refreshes.advance [Scalar K] {e : Engine K} {t : Thread K} (h : t.Refreshes e.config e.stopped)
    (s : Sources K) : (t.advance e s).1.Refreshes e.config e.stopped ∧ (t.advance e s).1.call = t.call ∧
      (t.advance e s).2.config = e.config ∧ (t.advance e s).2.stopped = e.stopped := by
  have hspec := t.advance_spec e s
  generalize t.advance e s = result at hspec ⊢
  obtain ⟨next, after⟩ := result
  obtain ⟨hforced, hstage⟩ := h
  dsimp only at hspec ⊢
  cases hspec with
  | found hfree => exact absurd (hforced.symm.trans hfree) Bool.noConfusion
  | foundInside hfree => exact absurd (hforced.symm.trans hfree) Bool.noConfusion
  | computed => exact ⟨⟨hforced, s, rfl⟩, rfl, rfl, rfl⟩
  | @concluded call ticket previous outcome =>
    obtain ⟨asked, (hasked : outcome = Entry.compute asked e.config e.stopped call.id previous)⟩ := hstage
    subst hasked
    exact ⟨⟨hforced, e.fate_of_conclude asked _ _ _ _⟩, rfl, e.conclude_config _ _ _, e.conclude_stopped _ _ _⟩
  | left => exact ⟨⟨hforced, hstage⟩, rfl, rfl, rfl⟩
  | deregistered => exact ⟨⟨hforced, hstage⟩, rfl, rfl, rfl⟩
  | stayed => exact ⟨⟨hforced, hstage⟩, rfl, rfl, rfl⟩
  | _ => exact ⟨⟨hforced, trivial⟩, rfl, rfl, rfl⟩

/-! ## Pools of workers -/

/-- The connections that a pool of workers refreshes: the calls that have begun, and the ids that no worker has taken
yet. -/
structure Pool (K : Type) where
  machine : Machine K
  waiting : List String

namespace Pool

/-- A pool that begins to refresh connections. -/
def start (e : Engine K) (s : Sources K) (ids : List String) : Pool K := ⟨⟨e, s, []⟩, ids⟩

/-- How many workers are at work. -/
def busy (p : Pool K) : Nat := p.machine.threads.countP fun t => !t.answer?.isSome

/-- Whether all connections have been refreshed. -/
def Done (p : Pool K) : Prop := p.waiting = [] ∧ ∀ t ∈ p.machine.threads, t.answer?.isSome = true

/-- What has become of the connections that have been refreshed, in the order in which they were taken. -/
def results (p : Pool K) : List (Refreshed K) :=
  p.machine.threads.filterMap fun t => t.answer?.map fun answer => ⟨t.call.id, answer⟩

/-- How many steps are left at most: for each id one to take it and those of its call. -/
def toGo (p : Pool K) : Nat :=
  9 * p.waiting.length + (p.machine.threads.map fun t => t.stage.toGo).sum

variable [Scalar K]

/-- A step of a pool: a worker that is free takes the next id, or one at work takes a step of its call, in surroundings
that may have changed. One that is kept out of its slot takes no step. -/
inductive Step (workers : Int) : Pool K → Pool K → Prop
  | take {p : Pool K} {id : String} {rest : List String} (hfree : (p.busy : Int) < max 1 workers)
      (hnext : p.waiting = id :: rest) : Step workers p ⟨p.machine.apply (.begin ⟨id, true⟩), rest⟩
  | advance {p : Pool K} (s : Sources K) {i : Nat} {t : Thread K} (hi : p.machine.threads[i]? = some t)
      (hstep : (t.advance p.machine.engine s).1.stage.toGo < t.stage.toGo) :
      Step workers p ⟨p.machine.run [.surround s, .advance i], p.waiting⟩

/-- So many steps of a pool. -/
inductive Steps (workers : Int) : Nat → Pool K → Pool K → Prop
  | refl (p : Pool K) : Steps workers 0 p p
  | tail {n : Nat} {p q r : Pool K} (h : Steps workers n p q) (hstep : Step workers q r) : Steps workers (n + 1) p r

variable {workers : Int} {p q r : Pool K}

theorem Steps.trans {n m : Nat} (h : Steps workers n p q) (h' : Steps workers m q r) : Steps workers (n + m) p r := by
  induction h' with
  | refl => exact h
  | tail _ hstep ih => exact (ih h).tail hstep

/-! ## Every run is finite -/

theorem run_advance_eq {m : Machine K} (s : Sources K) {i : Nat} {t : Thread K} (hi : m.threads[i]? = some t) :
    m.run [.surround s, .advance i] =
      ⟨(t.advance m.engine s).2, s, m.threads.set i (t.advance m.engine s).1⟩ :=
  Machine.apply_advance (m := { m with sources := s }) hi

theorem Step.toGo_lt (h : Step workers p q) : q.toGo < p.toGo := by
  cases h with
  | @take id rest hfree hnext =>
    unfold toGo
    rw [hnext, show (p.machine.apply (.begin ⟨id, true⟩)).threads = p.machine.threads ++ [.begin ⟨id, true⟩] from rfl,
      List.map_append, List.sum_append, List.length_cons]
    show 9 * rest.length + (_ + 8) < _
    omega
  | @advance s i t hi hstep =>
    have hsum := sum_map_set (fun t => t.stage.toGo) hi (t.advance p.machine.engine s).1
    unfold toGo
    rw [run_advance_eq s hi]
    dsimp only at hsum ⊢
    omega

/-- A run of a pool has at most as many steps as were left. -/
theorem Steps.add_toGo_le {n : Nat} (h : Steps workers n p q) : n + q.toGo ≤ p.toGo := by
  induction h with
  | refl => exact Nat.le_of_eq (Nat.zero_add _)
  | tail _ hstep ih =>
    have := hstep.toGo_lt
    omega

/-! ## What every step preserves -/

/-- What every step of a pool preserves: the slots account for the calls, each id has its call or still waits for one,
and the calls are on the way to what can become of them. -/
structure Steady (config : EngineConfig K) (stopped : Bool) (ids : List String) (p : Pool K) : Prop where
  orderly : p.machine.workshop.Orderly
  taken : (p.machine.threads.map fun t => t.call.id) ++ p.waiting = ids
  config_eq : p.machine.engine.config = config
  stopped_eq : p.machine.engine.stopped = stopped
  threads : ∀ t ∈ p.machine.threads, t.Refreshes config stopped

namespace Steady

variable {config : EngineConfig K} {stopped : Bool} {ids : List String}

theorem start {e : Engine K} (h : e.slots.list = []) (s : Sources K) (ids : List String) :
    (Pool.start e s ids).Steady e.config e.stopped ids :=
  ⟨.of_rest h, rfl, rfl, rfl, fun _ ht => absurd ht List.not_mem_nil⟩

theorem step (h : p.Steady config stopped ids) (hstep : Step workers p q) : q.Steady config stopped ids := by
  obtain ⟨horderly, htaken, rfl, rfl, hthreads⟩ := h
  cases hstep with
  | @take id rest hfree hnext =>
    refine ⟨Machine.orderly_run horderly [.begin ⟨id, true⟩], ?_, rfl, rfl, fun t ht => ?_⟩
    · rw [← htaken, hnext]
      show (p.machine.threads ++ [Thread.begin ⟨id, true⟩]).map _ ++ rest = _
      rw [List.map_append, List.append_assoc]
      rfl
    · rcases List.mem_append.mp ht with ht | ht
      · exact hthreads t ht
      · rw [List.mem_singleton.mp ht]
        exact ⟨rfl, trivial⟩
  | @advance s i t hi hstep =>
    obtain ⟨hrefreshes, hcall, hconfig, hstopped⟩ := (hthreads t (List.mem_of_getElem? hi)).advance s
    have horderly' := Machine.orderly_run horderly [.surround s, .advance i]
    rw [run_advance_eq s hi] at horderly' ⊢
    refine ⟨horderly', ?_, hconfig, hstopped, forall_mem_set hthreads hrefreshes i⟩
    have hids : (p.machine.threads.map fun t => t.call.id)[i]? = some t.call.id := by
      rw [List.getElem?_map, hi]
      rfl
    rw [← htaken]
    dsimp only
    rw [List.map_set, hcall, set_eq_self hids]

theorem steps {n : Nat} (h : p.Steady config stopped ids) (hsteps : Steps workers n p q) :
    q.Steady config stopped ids := by
  induction hsteps with
  | refl => exact h
  | tail _ hstep ih => exact (ih h).step hstep

/-! ## Until all is done there is a next step -/

/-- Among calls that have not ended there is one that can go on: one that waits can enter its slot unless another is
inside, and that one can go on itself. -/
theorem exists_advance (h : p.Steady config stopped ids)
    (hpending : ∃ t ∈ p.machine.threads, t.answer?.isSome = false) :
    ∃ t ∈ p.machine.threads, (t.advance p.machine.engine p.machine.sources).1.stage.toGo < t.stage.toGo := by
  by_cases hmoving : ∃ t ∈ p.machine.threads, t.answer?.isSome = false ∧ ∀ ticket, t.stage ≠ .waiting ticket
  · obtain ⟨t, ht, hpending, hmoving⟩ := hmoving
    have hfree : ∀ ticket, t.stage = .waiting ticket → (p.machine.engine.slots.acquire? ticket).isSome = true :=
      fun ticket hticket => absurd hticket (hmoving ticket)
    exact ⟨t, ht, Thread.toGo_advance_lt h.orderly ht hpending hfree _⟩
  · obtain ⟨t, ht, hpending⟩ := hpending
    refine ⟨t, ht, Thread.toGo_advance_lt h.orderly ht hpending (fun ticket hticket => ?_) _⟩
    have hheld : t.worker.ticket? = some ticket := by
      unfold Thread.worker
      rw [hticket]
      rfl
    refine (h.orderly.acquire_iff (List.mem_map_of_mem ht) hheld).mpr fun worker hworker _ => ?_
    obtain ⟨other, hother, rfl⟩ := List.mem_map.mp hworker
    -- nobody is inside: the others wait or have ended too
    cases hanswer : other.answer?.isSome with
    | true =>
      obtain ⟨call, stage⟩ := other
      cases stage <;> first | rfl | cases hanswer
    | false =>
      obtain ⟨ticket', hwaiting⟩ : ∃ ticket', other.stage = .waiting ticket' := by
        by_contra hnot
        exact hmoving ⟨other, hother, hanswer, fun ticket' heq => hnot ⟨ticket', heq⟩⟩
      unfold Thread.worker
      rw [hwaiting]
      rfl

theorem exists_step (h : p.Steady config stopped ids) (hdone : ¬ p.Done) (workers : Int) : ∃ q, Step workers p q := by
  by_cases hpending : ∃ t ∈ p.machine.threads, t.answer?.isSome = false
  · obtain ⟨t, ht, hstep⟩ := h.exists_advance hpending
    obtain ⟨i, hi⟩ := List.getElem?_of_mem ht
    exact ⟨_, .advance p.machine.sources hi hstep⟩
  · have hall : ∀ t ∈ p.machine.threads, t.answer?.isSome = true :=
      fun t ht => Bool.not_eq_false _ ▸ fun hfalse => hpending ⟨t, ht, hfalse⟩
    cases hwaiting : p.waiting with
    | nil => exact absurd ⟨hwaiting, hall⟩ hdone
    | cons id rest =>
      have hidle : p.busy = 0 := List.countP_eq_zero.mpr fun t ht => by simp [hall t ht]
      exact ⟨_, .take (by rw [hidle]; omega) hwaiting⟩

end Steady

/-! ## Refreshing one connection after another -/

/-- The call of a connection that has been refreshed. -/
def ended (r : Refreshed K) : Thread K := ⟨⟨r.id, true⟩, .finished r.outcome⟩

omit [Scalar K] in
theorem results_ended (m : Machine K) (refreshed : List (Refreshed K)) (waiting : List String) :
    results ⟨{ m with threads := refreshed.map ended }, waiting⟩ = refreshed := by
  show (refreshed.map ended).filterMap _ = _
  rw [List.filterMap_map]
  exact List.filterMap_some

/-- The thread that has begun last takes its next step. -/
theorem Steps.last {n : Nat} {e e' : Engine K} {s : Sources K} {threads : List (Thread K)} {t t' : Thread K}
    {waiting : List String} (h : Steps workers n p ⟨⟨e, s, threads ++ [t]⟩, waiting⟩)
    (hadvance : t.advance e s = (t', e')) (hstep : t'.stage.toGo < t.stage.toGo) :
    Steps workers (n + 1) p ⟨⟨e', s, threads ++ [t']⟩, waiting⟩ := by
  have hi : (threads ++ [t])[threads.length]? = some t := List.getElem?_concat_length
  have hset : (threads ++ [t]).set threads.length t' = threads ++ [t'] := by simp
  have hnext := h.tail (Step.advance s hi (by rw [hadvance]; exact hstep))
  rw [run_advance_eq s hi] at hnext
  dsimp only at hnext
  rw [hadvance, hset] at hnext
  exact hnext

/-- A lone thread enters its slot and leaves it without waiting. -/
theorem enter_eq_some {slots : Slots} (h : slots.list = []) (id : String) :
    (slots.register id).2.acquire? (slots.register id).1 = some (slots.enter id).2 ∧
      ∃ left, (slots.enter id).2.release? (slots.register id).1 = some left ∧
        left.deregister? (slots.register id).1 = some ((slots.enter id).2.leave (slots.enter id).1) := by
  simp [Slots.enter, Slots.leave, Slots.register, Slots.acquire?, Slots.release?, Slots.deregister?, Slots.ofTicket?,
    Slots.find?, Slots.modify, Option.filter, h]

/-- The steps of a worker that refreshes a connection while no other is at work. -/
theorem steps_refresh {e : Engine K} (h : e.slots.list = []) (s : Sources K) (workers : Int) (id : String)
    {threads : List (Thread K)} (hdone : ∀ t ∈ threads, t.answer?.isSome = true) (rest : List String) :
    Steps workers 9 ⟨⟨e, s, threads⟩, id :: rest⟩
      ⟨⟨(e.refresh s id).2, s, threads ++ [ended ⟨id, (e.refresh s id).1⟩]⟩, rest⟩ := by
  obtain ⟨hacquire, left, hrelease, hderegister⟩ := enter_eq_some h id
  have hidle : busy ⟨⟨e, s, threads⟩, id :: rest⟩ = 0 := List.countP_eq_zero.mpr fun t ht => by simp [hdone t ht]
  have htake : Step workers ⟨⟨e, s, threads⟩, id :: rest⟩ ⟨⟨e, s, threads ++ [⟨⟨id, true⟩, .called⟩]⟩, rest⟩ :=
    .take (by rw [hidle]; omega) rfl
  let ticket : Ticket := (e.slots.register id).1
  let answered : Except Error (Reply K) × Engine K := e.concluded s id
  let entered : Engine K := { e with slots := (e.slots.enter id).2 }
  have hcalled : Thread.advance ⟨⟨id, true⟩, .called⟩ e s = (⟨⟨id, true⟩, .missed⟩, e) := rfl
  have hmissed : Thread.advance ⟨⟨id, true⟩, .missed⟩ e s =
      (⟨⟨id, true⟩, .waiting ticket⟩, { e with slots := (e.slots.register id).2 }) := rfl
  have hwaiting : Thread.advance ⟨⟨id, true⟩, .waiting ticket⟩ { e with slots := (e.slots.register id).2 } s =
      (⟨⟨id, true⟩, .inside ticket⟩, entered) := by
    unfold Thread.advance Thread.step
    dsimp only
    rw [hacquire]
  have hinside : Thread.advance ⟨⟨id, true⟩, .inside ticket⟩ entered s =
      (⟨⟨id, true⟩, .computing ticket (e.cache.get? id)⟩, entered) := rfl
  have hcomputing : Thread.advance ⟨⟨id, true⟩, .computing ticket (e.cache.get? id)⟩ entered s =
      (⟨⟨id, true⟩, .computed ticket (e.cache.get? id) (e.attempt s id)⟩, entered) := rfl
  have hcomputed : Thread.advance ⟨⟨id, true⟩, .computed ticket (e.cache.get? id) (e.attempt s id)⟩ entered s =
      (⟨⟨id, true⟩, .leaving ticket answered.1⟩, { answered.2 with slots := (e.slots.enter id).2 }) := by
    unfold Thread.advance Thread.step
    dsimp only
    rw [Engine.conclude_with_slots]
    rfl
  have hleaving : Thread.advance ⟨⟨id, true⟩, .leaving ticket answered.1⟩
      { answered.2 with slots := (e.slots.enter id).2 } s =
      (⟨⟨id, true⟩, .released ticket answered.1⟩, { answered.2 with slots := left }) := by
    unfold Thread.advance Thread.step
    dsimp only
    rw [hrelease]
  have hreleased : Thread.advance ⟨⟨id, true⟩, .released ticket answered.1⟩ { answered.2 with slots := left } s =
      (ended ⟨id, answered.1⟩, { answered.2 with slots := e.slotsAfter id }) := by
    unfold Thread.advance Thread.step
    dsimp only
    rw [hderegister]
    rfl
  rw [Engine.refresh_eq]
  have hbegun : Steps workers 1 _ _ := (Steps.refl _).tail htake
  have hin := ((hbegun.last hcalled (Nat.lt_succ_self 7)).last hmissed (Nat.lt_succ_self 6)).last hwaiting
    (Nat.lt_succ_self 5)
  have hout := ((hin.last hinside (Nat.lt_succ_self 4)).last hcomputing (Nat.lt_succ_self 3)).last hcomputed
    (Nat.lt_succ_self 2)
  exact (hout.last hleaving (Nat.lt_succ_self 1)).last hreleased (Nat.lt_succ_self 0)

/-- The workers can refresh one connection after another, as a pass does. -/
theorem exists_steps_run {e : Engine K} (h : e.slots.list = []) (s : Sources K) (workers : Int) (ids : List String)
    (before : List (Refreshed K)) :
    ∃ n, Steps workers n ⟨⟨e, s, before.map ended⟩, ids⟩
      ⟨⟨(Pass.run e s ids).2, s, (before ++ (Pass.run e s ids).1.refreshed).map ended⟩, []⟩ := by
  induction ids generalizing e before with
  | nil => exact ⟨0, by rw [show (Pass.run e s []).1.refreshed = [] from rfl, List.append_nil]; exact .refl _⟩
  | cons id rest ih =>
    have hafter : (e.refresh s id).2.slots.list = [] := by
      rw [Engine.refresh_eq]
      exact Engine.slotsAfter_list h id
    have hdone : ∀ t ∈ before.map ended, t.answer?.isSome = true := by
      intro t ht
      obtain ⟨r, -, rfl⟩ := List.mem_map.mp ht
      rfl
    have hfirst := steps_refresh h s workers id hdone rest
    obtain ⟨n, hrest⟩ := ih hafter (before ++ [⟨id, (e.refresh s id).1⟩])
    rw [List.map_append, List.append_assoc] at hrest
    rw [Pass.run_cons]
    exact ⟨9 + n, hfirst.trans hrest⟩

end Pool

/-! ## What a pass counts -/

namespace Pass

variable {refreshed : List (Refreshed K)}

theorem countP_stale_add_failed_le (refreshed : List (Refreshed K)) :
    refreshed.countP Refreshed.isStale + refreshed.countP Refreshed.isFailed ≤ refreshed.length := by
  have hlength := List.length_eq_countP_add_countP Refreshed.isFailed (l := refreshed)
  have hle : refreshed.countP Refreshed.isStale ≤ refreshed.countP fun r => !r.isFailed := by
    refine List.countP_mono_left fun r _ hstale => ?_
    unfold Refreshed.isStale at hstale
    unfold Refreshed.isFailed
    split at hstale
    · rfl
    · cases hstale
  simp only [Bool.not_eq_true, Bool.decide_eq_false] at hlength
  omega

/-- A pass is counted unless the error of a connection fails it; each connection is counted once. -/
theorem counts_eq_ok {counts : PassCounts} (h : (Pass.mk refreshed).counts = .ok counts) :
    (∀ r ∈ refreshed, r.fatal? = none) ∧ counts.stale = refreshed.countP Refreshed.isStale ∧
      counts.failed = refreshed.countP Refreshed.isFailed ∧
      counts.ok + counts.stale + counts.failed = refreshed.length := by
  have hle := countP_stale_add_failed_le refreshed
  unfold Pass.counts at h
  split at h
  · cases h
  · next hnone =>
    cases h
    refine ⟨List.findSome?_eq_none_iff.mp hnone, rfl, rfl, ?_⟩
    dsimp only
    omega

theorem counts_eq_error {error : Error} (h : (Pass.mk refreshed).counts = .error error) :
    ∃ r ∈ refreshed, r.fatal? = some error := by
  unfold Pass.counts at h
  split at h
  · next found hfound =>
    cases h
    exact List.exists_of_findSome?_eq_some hfound
  · cases h

end Pass

/-! ## Passes -/

namespace Pool

variable [Scalar K] {p : Pool K} {config : EngineConfig K} {stopped : Bool} {ids : List String}

theorem Steady.ids_results (h : p.Steady config stopped ids) (hdone : p.Done) : p.results.map (·.id) = ids := by
  obtain ⟨hwaiting, hfinished⟩ := hdone
  rw [← h.taken, hwaiting, List.append_nil]
  unfold results
  generalize p.machine.threads = threads at hfinished
  induction threads with
  | nil => rfl
  | cons t rest ih =>
    obtain ⟨ht, hrest⟩ := List.forall_mem_cons.mp hfinished
    obtain ⟨answer, hanswer⟩ := Option.isSome_iff_exists.mp ht
    rw [List.filterMap_cons_some (by rw [hanswer]; rfl), List.map_cons, List.map_cons, ih hrest]

theorem Steady.fate_of_mem_results (h : p.Steady config stopped ids) {r : Refreshed K} (hr : r ∈ p.results) :
    Refreshed.Fate config stopped r.id r.outcome := by
  obtain ⟨t, ht, hanswer⟩ := List.mem_filterMap.mp hr
  obtain ⟨answer, hanswer, rfl⟩ := Option.map_eq_some_iff.mp hanswer
  have hfate := (h.threads t ht).2
  obtain ⟨call, stage⟩ := t
  cases stage <;> cases hanswer
  exact hfate

/-- A pass of an engine that no call is in progress on, with any number of workers, in surroundings that may change at
every step. One connection after another can be refreshed. Every run has at most nine steps for a connection and can go
on until all have been refreshed, each once; there is then a value or an error for each. In whichever order these
arrive, the pass counts them, unless the error of a connection is none of the analytics: then it raises such an
error. -/
theorem passes_end (workers : Int) {e : Engine K} (h : e.slots.list = []) (s : Sources K) (ids : List String) :
    (∃ n p, Steps workers n (start e s ids) p ∧ p.Done ∧ p.results = (Pass.run e s ids).1.refreshed) ∧
    ∀ n p, Steps workers n (start e s ids) p → n ≤ 9 * ids.length ∧ (p.Done ∨ ∃ q, Step workers p q) ∧
      (p.Done → p.results.map (·.id) = ids ∧
        (∀ r ∈ p.results, Refreshed.Fate e.config e.stopped r.id r.outcome) ∧
        ∀ order, order.Perm p.results →
          ((∀ r ∈ p.results, r.fatal? = none) → ∃ counts, (Pass.mk order).counts = .ok counts ∧
            counts.stale = p.results.countP Refreshed.isStale ∧
            counts.failed = p.results.countP Refreshed.isFailed ∧
            counts.ok + counts.stale + counts.failed = ids.length) ∧
          ((∃ r ∈ p.results, r.fatal?.isSome = true) → ∃ error, (Pass.mk order).counts = .error error ∧
            ∃ r ∈ p.results, r.fatal? = some error)) := by
  have hstart := Steady.start h s ids
  refine ⟨?_, fun n p hsteps => ?_⟩
  · obtain ⟨n, hrun⟩ := exists_steps_run h s workers ids []
    refine ⟨n, _, hrun, ⟨rfl, fun t ht => ?_⟩, results_ended ⟨_, s, []⟩ _ _⟩
    obtain ⟨r, -, rfl⟩ := List.mem_map.mp ht
    rfl
  have hsteady := hstart.steps hsteps
  refine ⟨?_, ?_, fun hdone => ⟨hsteady.ids_results hdone, fun r => hsteady.fate_of_mem_results, ?_⟩⟩
  · have hle := hsteps.add_toGo_le
    have htoGo : (start e s ids).toGo = 9 * ids.length := rfl
    omega
  · by_cases hdone : p.Done
    · exact .inl hdone
    · exact .inr (hsteady.exists_step hdone workers)
  · intro order horder
    have hlength : order.length = ids.length := by
      rw [horder.length_eq, ← hsteady.ids_results hdone, List.length_map]
    refine ⟨fun hnone => ?_, ?_⟩
    · cases hcounts : (Pass.mk order).counts with
      | ok counts =>
        obtain ⟨-, hstale, hfailed, hall⟩ := Pass.counts_eq_ok hcounts
        exact ⟨counts, rfl, hstale.trans (horder.countP_eq _), hfailed.trans (horder.countP_eq _), hall.trans hlength⟩
      | error error =>
        obtain ⟨r, hr, hfatal⟩ := Pass.counts_eq_error hcounts
        cases (hnone r (horder.mem_iff.mp hr)).symm.trans hfatal
    · rintro ⟨r, hr, hfatal⟩
      cases hcounts : (Pass.mk order).counts with
      | ok counts =>
        rw [(Pass.counts_eq_ok hcounts).1 r (horder.mem_iff.mpr hr)] at hfatal
        cases hfatal
      | error error =>
        obtain ⟨other, hother, herror⟩ := Pass.counts_eq_error hcounts
        exact ⟨error, rfl, other, horder.mem_iff.mp hother, herror⟩

/-- A connection with an undefined size among those that are refreshed fails the pass. -/
theorem pass_with_undefined_size_ends :
    let s : Sources Float := { Sources.quiet with
      history := fun id metric _ => .finished (.ok (match id, metric with
        | "broken", .queuedBytes =>
          ⟨id, metric, [⟨63839663000000000, some 0⟩, ⟨63839663060000000, some 0⟩], [10, 0 / 0]⟩
        | _, _ => Series.empty id metric)) }
    ∃ n p, Steps 2 n (start Engine.cold s ["broken", "orders"]) p ∧ n ≤ 18 ∧ p.Done ∧
      p.results.map (·.id) = ["broken", "orders"] ∧
      (Pass.mk p.results).counts = .error .observationNotFinite := by
  intro s
  obtain ⟨⟨n, p, hsteps, hdone, hresults⟩, hruns⟩ := passes_end 2 (e := Engine.cold) rfl s ["broken", "orders"]
  obtain ⟨hbound, -, hend⟩ := hruns n p hsteps
  refine ⟨n, p, hsteps, hbound, hdone, (hend hdone).1, ?_⟩
  rw [hresults]
  decide +kernel

end Pool

end Backpressure
