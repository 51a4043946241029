import Mathlib.Data.List.Forall2
import Backpressure.Proofs.Dispatch
import Backpressure.Proofs.Serving
import Backpressure.Proofs.Surroundings

/-!
# The two metrics apart

* `Engine.AlikeIn` : engines that hold the same of one metric, `AlikeIn.conclude`, `answer` : they answer alike about it
  and stay so, as long as no call fails;
* `Stage.AlikeIn`, `Machine.AlikeIn` : the same of threads that share an engine, `AlikeIn.advance` for one step,
  `AlikeIn.run` for a whole run;
* `Event.AlikeIn` : events that differ in what they record of the other metric, and in its limits;
* `Installation.metrics_are_separate`.
-/

namespace Backpressure
open Number Time Trend
open Engine (Fails)

variable {K : Type} {m : Metric}

/-- Answers that are alike in a metric: the same errors, or replies with the same facet. -/
abbrev facets (m : Metric) (answer : Except Error (Reply K)) : Except Error (ReplyFacet K) := answer.map (Reply.facet m)

/-- Calls none of which has raised an error or returned stale analytics. -/
abbrev Unfailing (answers : List (Except Error (Reply K))) : Prop := ∀ answer ∈ answers, ¬Fails answer

/-! ## Engines -/

namespace Engine

/-- Engines that hold the same of a metric, and of what is common to both. -/
structure AlikeIn (m : Metric) (e e' : Engine K) : Prop where
  config : e.config = e'.config
  stopped : e.stopped = e'.stopped
  slots : e.slots = e'.slots
  cache : e.cache.map (Entry.facet m) = e'.cache.map (Entry.facet m)

/-- A conclusion that is no failure is that of a computation that has succeeded. -/
theorem exists_of_not_fails_conclude {e : Engine K} {id : String} {previous : Option (Entry K)}
    {outcome : Except Error (Entry K)} (hok : ¬Fails (e.conclude id previous outcome).1) :
    ∃ entry, outcome = .ok entry := by
  have hspec := conclude_spec e id previous outcome
  generalize e.conclude id previous outcome = result at hspec hok
  obtain ⟨answer, after⟩ := result
  cases hspec with
  | computed entry => exact ⟨entry, rfl⟩
  | stale _ _ => exact absurd rfl hok
  | _ => exact absurd trivial hok

namespace AlikeIn

variable {e e' : Engine K} {s s' : Sources K} {id : String}

protected theorem refl (m : Metric) (e : Engine K) : e.AlikeIn m e := ⟨rfl, rfl, rfl, rfl⟩

theorem get? (h : e.AlikeIn m e') (id : String) :
    (e.cache.get? id).map (Entry.facet m) = (e'.cache.get? id).map (Entry.facet m) := by
  rw [← Cache.get?_map, ← Cache.get?_map, h.cache]

theorem drop (h : e.AlikeIn m e') (id : String) :
    AlikeIn m { e with cache := e.cache.drop id } { e' with cache := e'.cache.drop id } := by
  refine { h with cache := ?_ }
  show (e.cache.drop id).map _ = (e'.cache.drop id).map _
  rw [Cache.map_drop, Cache.map_drop, h.cache]

theorem invalidateAll (h : e.AlikeIn m e') : e.invalidateAll.AlikeIn m e'.invalidateAll := by
  refine { h with cache := ?_ }
  exact congrArg (fun c : Cache (EntryFacet K) => (⟨c.capacity, Table.empty⟩ : Cache (EntryFacet K))) h.cache

/-- Computations that both succeed, with entries alike in the metric, are concluded alike. -/
theorem conclude (h : e.AlikeIn m e') {previous previous' : Option (Entry K)}
    {outcome outcome' : Except Error (Entry K)}
    (houtcome : ∀ entry entry', outcome = .ok entry → outcome' = .ok entry' → entry.facet m = entry'.facet m)
    (hok : ¬Fails (e.conclude id previous outcome).1) (hok' : ¬Fails (e'.conclude id previous' outcome').1) :
    facets m (e.conclude id previous outcome).1 = facets m (e'.conclude id previous' outcome').1 ∧
      (e.conclude id previous outcome).2.AlikeIn m (e'.conclude id previous' outcome').2 := by
  obtain ⟨entry, rfl⟩ := exists_of_not_fails_conclude hok
  obtain ⟨entry', rfl⟩ := exists_of_not_fails_conclude hok'
  have hentry := houtcome entry entry' rfl rfl
  refine ⟨congrArg (fun f : EntryFacet K => Except.ok (ReplyFacet.mk .computed f.shown)) hentry, ?_⟩
  refine { h with cache := ?_ }
  show (e.cache.put id entry).map _ = (e'.cache.put id entry').map _
  rw [Cache.map_put, Cache.map_put, h.cache, hentry]

variable [Scalar K]

/-- What is fresh in one of the engines is fresh in the other. -/
theorem fresh? (h : e.AlikeIn m e') (hs : s.AlikeIn m s') (id : String) :
    (e.fresh? s id).map (Analytics.facet m) = (e'.fresh? s' id).map (Analytics.facet m) := by
  unfold Engine.fresh?
  rcases Option.cases_of_map_eq (h.get? id) with ⟨hleft, hright⟩ | ⟨entry, entry', hleft, hright, hentry⟩
  · rw [hleft, hright]
    rfl
  · have htime : entry.computedMonotonic = entry'.computedMonotonic := congrArg EntryFacet.computedMonotonic hentry
    have hshown : entry.analytics.facet m = entry'.analytics.facet m := congrArg EntryFacet.shown hentry
    rw [hleft, hright, Option.bind_some, Option.bind_some]
    unfold isFresh
    rw [h.config, hs.monotonic, htime]
    split
    · exact congrArg some hshown
    · rfl

theorem refresh (h : e.AlikeIn m e') (hs : s.AlikeIn m s') (hok : ¬Fails (e.refresh s id).1)
    (hok' : ¬Fails (e'.refresh s' id).1) :
    facets m (e.refresh s id).1 = facets m (e'.refresh s' id).1 ∧
      (e.refresh s id).2.AlikeIn m (e'.refresh s' id).2 := by
  rw [refresh_eq] at hok hok' ⊢
  rw [refresh_eq]
  have hattempt : ∀ entry entry', e.attempt s id = .ok entry → e'.attempt s' id = .ok entry' →
      entry.facet m = entry'.facet m := by
    intro entry entry' hentry hentry'
    unfold attempt at hentry hentry'
    rw [← h.config] at hentry'
    exact Entry.facet_of_compute hs (h.get? id) hentry hentry'
  obtain ⟨hanswer, hafter⟩ := h.conclude hattempt hok hok'
  refine ⟨hanswer, { hafter with slots := ?_ }⟩
  show e.slotsAfter id = e'.slotsAfter id
  unfold slotsAfter enter
  rw [h.slots]

theorem answer (h : e.AlikeIn m e') (hs : s.AlikeIn m s') {call : Call} (hok : ¬Fails (e.answer s call).1)
    (hok' : ¬Fails (e'.answer s' call).1) :
    facets m (e.answer s call).1 = facets m (e'.answer s' call).1 ∧
      (e.answer s call).2.AlikeIn m (e'.answer s' call).2 := by
  unfold Engine.answer at hok hok' ⊢
  split
  · next hforced =>
    rw [if_pos hforced] at hok hok'
    exact h.refresh hs hok hok'
  · next hforced =>
    rw [if_neg hforced] at hok hok'
    rcases Option.cases_of_map_eq (h.fresh? hs call.id) with ⟨hleft, hright⟩ | ⟨value, value', hleft, hright, hvalue⟩
    · rw [get_of_miss hleft] at hok ⊢
      rw [get_of_miss hright] at hok' ⊢
      exact h.refresh hs hok hok'
    · rw [get_of_hit hleft, get_of_hit hright]
      exact ⟨congrArg (fun f => Except.ok (ReplyFacet.mk .cached f)) hvalue, { h with }⟩

theorem answers (h : e.AlikeIn m e') (hs : s.AlikeIn m s') {calls : List Call}
    (hok : Unfailing (e.answers s calls).1) (hok' : Unfailing (e'.answers s' calls).1) :
    (e.answers s calls).1.map (facets m) = (e'.answers s' calls).1.map (facets m) ∧
      (e.answers s calls).2.AlikeIn m (e'.answers s' calls).2 := by
  induction calls generalizing e e' with
  | nil => exact ⟨rfl, h⟩
  | cons call rest ih =>
    obtain ⟨hfirst, hrest⟩ := List.forall_mem_cons.mp hok
    obtain ⟨hfirst', hrest'⟩ := List.forall_mem_cons.mp hok'
    obtain ⟨hanswer, hafter⟩ := h.answer hs hfirst hfirst'
    obtain ⟨hothers, hend⟩ := ih hafter hrest hrest'
    exact ⟨List.cons_eq_cons.mpr ⟨hanswer, hothers⟩, hend⟩

end AlikeIn

end Engine

/-! ## Threads -/

/-- Stages that hold the same of a metric. Of two outcomes one may be an error; then the call is about to fail. -/
inductive Stage.AlikeIn (m : Metric) : Stage K → Stage K → Prop
  | called : AlikeIn m .called .called
  | missed : AlikeIn m .missed .missed
  | waiting (ticket : Ticket) : AlikeIn m (.waiting ticket) (.waiting ticket)
  | inside (ticket : Ticket) : AlikeIn m (.inside ticket) (.inside ticket)
  | computing (ticket : Ticket) {previous previous' : Option (Entry K)}
      (hprevious : previous.map (Entry.facet m) = previous'.map (Entry.facet m)) :
      AlikeIn m (.computing ticket previous) (.computing ticket previous')
  | computed (ticket : Ticket) {previous previous' : Option (Entry K)} {outcome outcome' : Except Error (Entry K)}
      (houtcome : ∀ entry entry', outcome = .ok entry → outcome' = .ok entry' → entry.facet m = entry'.facet m) :
      AlikeIn m (.computed ticket previous outcome) (.computed ticket previous' outcome')
  | leaving (ticket : Ticket) {answer answer' : Except Error (Reply K)} (hanswer : facets m answer = facets m answer') :
      AlikeIn m (.leaving ticket answer) (.leaving ticket answer')
  | released (ticket : Ticket) {answer answer' : Except Error (Reply K)}
      (hanswer : facets m answer = facets m answer') :
      AlikeIn m (.released ticket answer) (.released ticket answer')
  | finished {answer answer' : Except Error (Reply K)} (hanswer : facets m answer = facets m answer') :
      AlikeIn m (.finished answer) (.finished answer')

namespace Thread

/-- Threads that make one call and hold the same of a metric. -/
structure AlikeIn (m : Metric) (t t' : Thread K) : Prop where
  call : t.call = t'.call
  stage : t.stage.AlikeIn m t'.stage

theorem AlikeIn.known? {t t' : Thread K} (h : t.AlikeIn m t') :
    t.known?.map (facets m) = t'.known?.map (facets m) := by
  obtain ⟨call, stage⟩ := t
  obtain ⟨call', stage'⟩ := t'
  obtain ⟨-, hstage⟩ := h
  cases hstage with
  | leaving _ hanswer => exact congrArg some hanswer
  | released _ hanswer => exact congrArg some hanswer
  | finished hanswer => exact congrArg some hanswer
  | _ => rfl

variable [Scalar K] {e e' : Engine K} {s s' : Sources K} {t t' : Thread K}

/-- An answer that a thread knows it knows for good. -/
theorem known?_advance {answer : Except Error (Reply K)} (h : t.known? = some answer) (e : Engine K) (s : Sources K) :
    (t.advance e s).1.known? = some answer := by
  have hstep := t.advance_spec e s
  generalize t.advance e s = result at hstep ⊢
  obtain ⟨next, after⟩ := result
  dsimp only at hstep ⊢
  cases hstep with
  | left _ => exact h
  | deregistered _ => exact h
  | stayed _ => exact h
  | _ => cases h

theorem AlikeIn.hit? (h : t.AlikeIn m t') (he : e.AlikeIn m e') (hs : s.AlikeIn m s') :
    t.hit? e s = none ∧ t'.hit? e' s' = none ∨ ∃ reply reply' after after', t.hit? e s = some (reply, after) ∧
      t'.hit? e' s' = some (reply', after') ∧ reply.facet m = reply'.facet m ∧ after.AlikeIn m after' := by
  unfold Thread.hit? Engine.hit?
  rw [← h.call]
  split
  · exact .inl ⟨rfl, rfl⟩
  · rcases Option.cases_of_map_eq (he.fresh? hs t.call.id) with ⟨hleft, hright⟩ | ⟨value, value', hleft, hright, hvalue⟩
    · exact .inl ⟨by rw [hleft]; rfl, by rw [hright]; rfl⟩
    · rw [hleft, hright]
      exact .inr ⟨_, _, _, _, rfl, rfl, congrArg (ReplyFacet.mk .cached) hvalue, { he with }⟩

/-- One step of threads that hold the same of a metric, neither of which comes to know that its call has failed. -/
theorem AlikeIn.advance (h : t.AlikeIn m t') (he : e.AlikeIn m e') (hs : s.AlikeIn m s')
    (hok : ∀ answer, (t.advance e s).1.known? = some answer → ¬Fails answer)
    (hok' : ∀ answer, (t'.advance e' s').1.known? = some answer → ¬Fails answer) :
    (t.advance e s).1.AlikeIn m (t'.advance e' s').1 ∧ (t.advance e s).2.AlikeIn m (t'.advance e' s').2 := by
  have hhit := h.hit? he hs
  obtain ⟨call, stage⟩ := t
  obtain ⟨call', stage'⟩ := t'
  obtain ⟨hcall, hstage⟩ := h
  dsimp only at hcall hstage
  subst hcall
  unfold Thread.advance step at hok hok' ⊢
  cases hstage with
  | called =>
    rcases hhit with ⟨hleft, hright⟩ | ⟨reply, reply', after, after', hleft, hright, hreply, hafter⟩
    · dsimp only
      rw [hleft, hright]
      exact ⟨⟨rfl, .missed⟩, he⟩
    · dsimp only
      rw [hleft, hright]
      exact ⟨⟨rfl, .finished (congrArg Except.ok hreply)⟩, hafter⟩
  | missed =>
    dsimp only
    rw [he.slots]
    exact ⟨⟨rfl, .waiting _⟩, { he with slots := rfl }⟩
  | waiting ticket =>
    dsimp only
    rw [he.slots]
    cases e'.slots.acquire? ticket with
    | none => exact ⟨⟨rfl, .waiting ticket⟩, he⟩
    | some slots => exact ⟨⟨rfl, .inside ticket⟩, { he with slots := rfl }⟩
  | inside ticket =>
    rcases hhit with ⟨hleft, hright⟩ | ⟨reply, reply', after, after', hleft, hright, hreply, hafter⟩
    · dsimp only
      rw [hleft, hright]
      exact ⟨⟨rfl, .computing ticket (he.get? call.id)⟩, he⟩
    · dsimp only
      rw [hleft, hright]
      exact ⟨⟨rfl, .leaving ticket (congrArg Except.ok hreply)⟩, hafter⟩
  | computing ticket hprevious =>
    refine ⟨⟨rfl, .computed ticket fun entry entry' hentry hentry' => ?_⟩, he⟩
    rw [← he.config] at hentry'
    exact Entry.facet_of_compute hs hprevious hentry hentry'
  | computed ticket houtcome =>
    -- The only step in which the metrics could meet: an error in the other one would show as a failure of the call.
    obtain ⟨hanswer, hafter⟩ := he.conclude houtcome (hok _ rfl) (hok' _ rfl)
    exact ⟨⟨rfl, .leaving ticket hanswer⟩, hafter⟩
  | leaving ticket hanswer =>
    dsimp only
    rw [he.slots]
    cases e'.slots.release? ticket with
    | none => exact ⟨⟨rfl, .leaving ticket hanswer⟩, he⟩
    | some slots => exact ⟨⟨rfl, .released ticket hanswer⟩, { he with slots := rfl }⟩
  | released ticket hanswer =>
    dsimp only
    rw [he.slots]
    cases e'.slots.deregister? ticket with
    | none => exact ⟨⟨rfl, .released ticket hanswer⟩, he⟩
    | some slots => exact ⟨⟨rfl, .finished hanswer⟩, { he with slots := rfl }⟩
  | finished hanswer => exact ⟨⟨rfl, .finished hanswer⟩, he⟩

end Thread

/-! ## Machines -/

section Forall₂

variable {α : Type} {R : α → α → Prop} {l l' : List α}

theorem forall₂_getElem? (h : List.Forall₂ R l l') (i : Nat) :
    l[i]? = none ∧ l'[i]? = none ∨ ∃ a a', l[i]? = some a ∧ l'[i]? = some a' ∧ R a a' := by
  induction h generalizing i with
  | nil => exact .inl ⟨rfl, rfl⟩
  | cons hfirst _ ih =>
    cases i with
    | zero => exact .inr ⟨_, _, rfl, rfl, hfirst⟩
    | succ i => exact ih i

theorem forall₂_set (h : List.Forall₂ R l l') {a a' : α} (ha : R a a') (i : Nat) :
    List.Forall₂ R (l.set i a) (l'.set i a') := by
  induction h generalizing i with
  | nil => exact .nil
  | cons hfirst hrest ih =>
    cases i with
    | zero => exact .cons ha hrest
    | succ i => exact .cons hfirst (ih i)

end Forall₂

/-- Moves that differ in what the surroundings answer about the other metric. -/
inductive Move.AlikeIn (m : Metric) : Move K → Move K → Prop
  | same (move : Move K) : AlikeIn m move move
  | surround {s s' : Sources K} (h : s.AlikeIn m s') : AlikeIn m (.surround s) (.surround s')

theorem Move.alikeIn_self (m : Metric) (moves : List (Move K)) : List.Forall₂ (Move.AlikeIn m) moves moves :=
  List.forall₂_same.mpr fun move _ => .same move

namespace Machine

/-- Threads that hold the same of a metric, and share engines and surroundings that do. -/
structure AlikeIn (m : Metric) (a b : Machine K) : Prop where
  engine : a.engine.AlikeIn m b.engine
  sources : a.sources.AlikeIn m b.sources
  threads : List.Forall₂ (Thread.AlikeIn m) a.threads b.threads

variable {a b : Machine K}

theorem AlikeIn.known (h : a.AlikeIn m b) : a.known.map (facets m) = b.known.map (facets m) := by
  obtain ⟨-, -, hthreads⟩ := h
  unfold Machine.known
  generalize a.threads = threads at hthreads ⊢
  generalize b.threads = threads' at hthreads ⊢
  induction hthreads with
  | nil => rfl
  | cons ht _ ih =>
    rw [List.filterMap_cons, List.filterMap_cons]
    rcases Option.cases_of_map_eq ht.known? with ⟨hleft, hright⟩ | ⟨answer, answer', hleft, hright, hanswer⟩
    · rw [hleft, hright]
      exact ih
    · rw [hleft, hright]
      exact List.cons_eq_cons.mpr ⟨hanswer, ih⟩

variable [Scalar K]

theorem mem_known_apply {answer : Except Error (Reply K)} (h : answer ∈ a.known) (move : Move K) :
    answer ∈ (a.apply move).known := by
  obtain ⟨t, ht, hknown⟩ := List.mem_filterMap.mp h
  cases move with
  | begin call => exact List.mem_filterMap.mpr ⟨t, List.mem_append_left _ ht, hknown⟩
  | advance i =>
    cases hi : a.threads[i]? with
    | none =>
      rw [apply_advance_of_none hi]
      exact h
    | some u =>
      rw [apply_advance hi]
      obtain ⟨j, hj⟩ := List.mem_iff_getElem?.mp ht
      by_cases hij : i = j
      · subst hij
        cases hi.symm.trans hj
        obtain ⟨hlt, -⟩ := List.getElem?_eq_some_iff.mp hi
        exact List.mem_filterMap.mpr ⟨_, List.mem_set hlt _, Thread.known?_advance hknown _ _⟩
      · refine List.mem_filterMap.mpr ⟨t, List.mem_of_getElem? (i := j) ?_, hknown⟩
        exact (List.getElem?_set_ne hij).trans hj
  | _ => exact h

theorem known_subset_run (a : Machine K) (moves : List (Move K)) : a.known ⊆ (a.run moves).known := by
  induction moves generalizing a with
  | nil => exact List.Subset.refl _
  | cons move rest ih => exact fun answer hanswer => ih (a.apply move) (mem_known_apply hanswer move)

/-- One move keeps threads alike in a metric, if none of them comes to know that its call has failed. -/
theorem AlikeIn.apply (h : a.AlikeIn m b) {move move' : Move K} (hmove : move.AlikeIn m move')
    (hok : Unfailing (a.apply move).known) (hok' : Unfailing (b.apply move').known) :
    (a.apply move).AlikeIn m (b.apply move') := by
  cases hmove with
  | surround hs => exact { h with sources := hs }
  | same =>
    cases move with
    | begin call => exact { h with threads := List.rel_append h.threads (.cons ⟨rfl, .called⟩ .nil) }
    | advance i =>
      rcases forall₂_getElem? h.threads i with ⟨hleft, hright⟩ | ⟨t, t', hleft, hright, ht⟩
      · rw [apply_advance_of_none hleft, apply_advance_of_none hright]
        exact h
      · rw [apply_advance hleft] at hok ⊢
        rw [apply_advance hright] at hok' ⊢
        obtain ⟨hlt, -⟩ := List.getElem?_eq_some_iff.mp hleft
        obtain ⟨hlt', -⟩ := List.getElem?_eq_some_iff.mp hright
        obtain ⟨hnext, hafter⟩ := ht.advance h.engine h.sources
          (fun answer hanswer => hok answer (List.mem_filterMap.mpr ⟨_, List.mem_set hlt _, hanswer⟩))
          (fun answer hanswer => hok' answer (List.mem_filterMap.mpr ⟨_, List.mem_set hlt' _, hanswer⟩))
        exact ⟨hafter, h.sources, forall₂_set h.threads hnext i⟩
    | invalidate id => exact { h with engine := h.engine.drop id }
    | invalidateAll => exact { h with engine := h.engine.invalidateAll }
    | surround s => exact { h with sources := .refl m s }

/-- Threads that are alike in a metric stay so in a run in which no call fails. -/
theorem AlikeIn.run (h : a.AlikeIn m b) {moves moves' : List (Move K)}
    (hmoves : List.Forall₂ (Move.AlikeIn m) moves moves') (hok : Unfailing (a.run moves).known)
    (hok' : Unfailing (b.run moves').known) : (a.run moves).AlikeIn m (b.run moves') := by
  induction hmoves generalizing a b with
  | nil => exact h
  | @cons move move' rest rest' hmove _ ih =>
    -- What is known after the first move is known at the end.
    have hfirst := h.apply hmove (fun answer hanswer => hok answer (known_subset_run _ rest hanswer))
      (fun answer hanswer => hok' answer (known_subset_run _ rest' hanswer))
    exact ih hfirst hok hok'

end Machine

/-! ## Events -/

/-- Events that differ in what they record of the other metric, and in its limits. -/
inductive Event.AlikeIn (m : Metric) : Event K → Event K → Prop
  | same (event : Event K) : AlikeIn m event event
  | register (id : String) {bytes bytes' : Reading} {count count' : Option Limit}
      (hbytes : m = .queuedBytes → bytes = bytes') (hcount : m = .queuedCount → count = count')
      (hok : (DataSize.parse bytes).isOk = (DataSize.parse bytes').isOk) :
      AlikeIn m (.register id bytes count) (.register id bytes' count')
  | record (id : String) {points points' : List (Timestamp × Reading × Reading)}
      (hpoints : List.Forall₂ (History.PointAlikeIn m) points points') :
      AlikeIn m (.record id points) (.record id points')

theorem Event.AlikeIn.alter {event event' : Event K} (hevent : event.AlikeIn m event') {e e' : Engine K}
    (h : e.AlikeIn m e') : (event.alter e).AlikeIn m (event'.alter e') := by
  cases hevent with
  | register => exact h
  | record => exact h
  | same =>
    cases event with
    | invalidate id => exact h.drop id
    | invalidateAll => exact h.invalidateAll
    | close => exact { h with stopped := rfl }
    | request method target =>
      unfold Event.alter
      dsimp only
      cases Route.reached? method target with
      | none => exact h
      | some route =>
        cases route with
        | cache id => exact h.drop id
        | _ => exact h
    | _ => exact h

namespace Installation

/-- Installations that hold the same of a metric, and of what is common to both. -/
structure AlikeIn (m : Metric) (i j : Installation K) : Prop where
  engine : i.engine.AlikeIn m j.engine
  site : i.site.AlikeIn m j.site

protected theorem AlikeIn.refl (m : Metric) (i : Installation K) : i.AlikeIn m i := ⟨.refl m _, .refl m _⟩

variable [Scalar K] {i j : Installation K} {event event' : Event K}

theorem AlikeIn.start (h : i.AlikeIn m j) :
    (Machine.start i.engine i.site.sources).AlikeIn m (Machine.start j.engine j.site.sources) :=
  ⟨h.engine, h.site.sources, .nil⟩

/-- The calls that an event makes have answers alike in a metric, if none of them fails. -/
theorem AlikeIn.called (h : i.AlikeIn m j) (hevent : event.AlikeIn m event') (hok : Unfailing (i.called event).1)
    (hok' : Unfailing (j.called event').1) :
    (i.called event).1.map (facets m) = (j.called event').1.map (facets m) ∧
      (i.called event).2.AlikeIn m (j.called event').2 := by
  cases hevent with
  | register => exact ⟨rfl, h.engine⟩
  | record => exact ⟨rfl, h.engine⟩
  | same =>
    cases event with
    | overlap calls =>
      have hrun := h.start.run (Move.alikeIn_self m (Machine.overlapping calls)) hok hok'
      exact ⟨hrun.known, hrun.engine⟩
    | _ => exact h.engine.answers h.site.sources hok hok'

theorem AlikeIn.site_step (h : i.AlikeIn m j) (hevent : event.AlikeIn m event') :
    (i.step event).2.site.AlikeIn m (j.step event').2.site := by
  have hsite := h.site
  have hfaults (f : Faults K → Faults K) : Site.AlikeIn m { i.site with faults := f i.site.faults }
      { j.site with faults := f j.site.faults } := { hsite with faults := congrArg f hsite.faults }
  cases hevent with
  | register id hbytes hcount hok => exact hsite.register id hbytes hcount hok
  | record id hpoints => exact hsite.record id hpoints
  | same =>
    cases event with
    | register id bytes count => exact hsite.register id (fun _ => rfl) (fun _ => rfl) rfl
    | remove id => exact hsite.remove id
    | record id points =>
      exact hsite.record id (List.forall₂_same.mpr fun _ _ => ⟨rfl, fun _ => rfl, fun _ => rfl, rfl⟩)
    | pin series => exact hsite.pin series
    | failHistory e metrics =>
      exact hfaults fun f => { f with history := metrics.foldl (fun h m => h.set m (some e)) f.history }
    | failThresholds e => exact hfaults fun f => { f with thresholds := some e }
    | failListing e => exact hfaults fun f => { f with listing := some e }
    | hold seconds metrics =>
      exact hfaults fun f => { f with held := metrics.foldl (fun h m => h.set m (some seconds)) f.held }
    | recover => exact hfaults fun _ => Faults.none
    | setClock t => exact { hsite with clock := rfl }
    | setMonotonic x => exact { hsite with monotonic := rfl }
    | _ => exact hsite

/-- One event keeps installations alike in a metric, if none of its calls fails. -/
theorem AlikeIn.step (h : i.AlikeIn m j) (hevent : event.AlikeIn m event') (hok : Unfailing (i.called event).1)
    (hok' : Unfailing (j.called event').1) : (i.step event).2.AlikeIn m (j.step event').2 where
  engine := by
    rw [engine_step, engine_step]
    exact hevent.alter (h.called hevent hok hok').2
  site := h.site_step hevent

/-- Events one after another, none of whose calls fails, have answers alike in the metric and keep installations so. -/
theorem AlikeIn.run (h : i.AlikeIn m j) {events events' : List (Event K)}
    (hevents : List.Forall₂ (Event.AlikeIn m) events events') (hok : Unfailing (i.outcomes events))
    (hok' : Unfailing (j.outcomes events')) :
    (i.outcomes events).map (facets m) = (j.outcomes events').map (facets m) ∧
      (i.run events).2.AlikeIn m (j.run events').2 := by
  induction hevents generalizing i j with
  | nil => exact ⟨rfl, h⟩
  | @cons event event' rest rest' hevent _ ih =>
    obtain ⟨hfirst, hrest⟩ := List.forall_mem_append.mp hok
    obtain ⟨hfirst', hrest'⟩ := List.forall_mem_append.mp hok'
    obtain ⟨hothers, hend⟩ := ih (h.step hevent hfirst hfirst') hrest hrest'
    refine ⟨?_, hend⟩
    show ((i.called event).1 ++ _).map _ = ((j.called event').1 ++ _).map _
    rw [List.map_append, List.map_append, (h.called hevent hfirst hfirst').1, hothers]

/-- The metrics do not influence each other. Take two runs from installations that hold the same of one metric, of
events that differ in what they record of the other metric and in its limits, and threads that interleave in any way
after them. As long as no call raises an error or returns stale analytics, all that is returned of the metric is the
same in both runs, and so is all that the caches hold of it. -/
theorem metrics_are_separate {m : Metric} {i j : Installation K} (h : i.AlikeIn m j) {events events' : List (Event K)}
    (hevents : List.Forall₂ (Event.AlikeIn m) events events') (hok : Unfailing (i.outcomes events))
    (hok' : Unfailing (j.outcomes events')) :
    let i' := (i.run events).2
    let j' := (j.run events').2
    (i.outcomes events).map (facets m) = (j.outcomes events').map (facets m) ∧
    (∀ id, (i'.engine.cache.get? id).map (Entry.facet m) = (j'.engine.cache.get? id).map (Entry.facet m)) ∧
    ∀ moves moves', List.Forall₂ (Move.AlikeIn m) moves moves' →
      let a := (Machine.start i'.engine i'.site.sources).run moves
      let b := (Machine.start j'.engine j'.site.sources).run moves'
      Unfailing a.known → Unfailing b.known →
      a.known.map (facets m) = b.known.map (facets m) ∧
        ∀ id, (a.engine.cache.get? id).map (Entry.facet m) = (b.engine.cache.get? id).map (Entry.facet m) := by
  intro i' j'
  obtain ⟨houtcomes, hafter⟩ := h.run hevents hok hok'
  refine ⟨houtcomes, hafter.engine.get?, ?_⟩
  intro moves moves' hmoves a b ha hb
  have hrun : a.AlikeIn m b := hafter.start.run hmoves ha hb
  exact ⟨hrun.known, hrun.engine.get?⟩

end Installation

/-- The recording of two sizes of a queue, of which the counts and their limit are as given, and three calls. -/
def Event.ordersCounting (limit : Option Limit) (first second : Int) : List (Event Float) :=
  [.register "orders" (.whole 1000) limit,
    .record "orders" [(⟨63839663000000000, some 0⟩, .whole 10, .whole first),
      (⟨63839663060000000, some 0⟩, .whole 20, .whole second)],
    .get "orders", .overlap [⟨"orders", true⟩, ⟨"orders", false⟩]]

/-- What is returned and held of the bytes does not depend on the counts, and they are not the same. -/
theorem Installation.bytes_of_orders_ignore_counts :
    let start : Installation Float := ⟨.cold, Site.empty ⟨63839664000000000, some 0⟩ 0 Registry.standard⟩
    let events := Event.ordersCounting none 1 1
    let events' := Event.ordersCounting (some (.amount 50)) 3 9
    List.Forall₂ (Event.AlikeIn .queuedBytes) events events' ∧
      Unfailing (start.outcomes events) ∧ Unfailing (start.outcomes events') ∧
      (start.outcomes events).map (facets .queuedBytes) = (start.outcomes events').map (facets .queuedBytes) ∧
      (start.outcomes events).length = 3 ∧
      (start.outcomes events).map (·.toOption.map (·.value.next.count)) ≠
        (start.outcomes events').map (·.toOption.map (·.value.next.count)) := by
  intro start events events'
  have hevents : List.Forall₂ (Event.AlikeIn .queuedBytes) events events' := by
    refine .cons (.register _ (fun _ => rfl) nofun rfl) (.cons (.record _ ?_) (.cons (.same _) (.cons (.same _) .nil)))
    exact .cons ⟨rfl, fun _ => rfl, nofun, rfl⟩ (.cons ⟨rfl, fun _ => rfl, nofun, rfl⟩ .nil)
  have hok : Unfailing (start.outcomes events) := by decide +kernel
  have hok' : Unfailing (start.outcomes events') := by decide +kernel
  have hsame := metrics_are_separate (.refl .queuedBytes start) hevents hok hok'
  exact ⟨hevents, hok, hok', hsame.1, by decide +kernel, by decide +kernel⟩

end Backpressure
