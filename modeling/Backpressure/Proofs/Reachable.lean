import Backpressure.Engine.Threads
import Backpressure.Proofs.Cache
import Backpressure.Proofs.Computation
import Backpressure.Proofs.Steps

/-!
# Reachable engines

* `Engine.Reachable allowed` : the engines that calls, drops and threads lead to from a new one, where the surroundings
  are `allowed` during each call;
* `Engine.Keeps P` : the cache is well formed and its entries have `P`;
* `Reachable.keeps` : entries have `P` in every reachable engine if a computation inherits `P` from the entry it starts
  from;
* `Reachable.slots_list` : when no call is in progress no slot is in use;
* `Machine.Reachable allowed` : the threads that share such an engine, with calls in progress.
-/

namespace Backpressure
open Number Trend

variable {K : Type}

/-- The ticket that a thread holds. -/
def Thread.ticket? (t : Thread K) : Option Ticket :=
  match t.stage with
  | .called | .missed | .finished _ => none
  | .waiting ticket | .inside ticket | .computing ticket _ | .computed ticket _ _ | .leaving ticket _
  | .released ticket _ => some ticket

theorem Thread.ticket?_eq_none_of_answer? {t : Thread K} (h : t.answer?.isSome) : t.ticket? = none := by
  unfold answer? at h
  unfold ticket?
  split at h
  · next hstage => rw [hstage]
  · cases h

namespace Engine

/-- A property of the entry of a connection, for a configuration. -/
abbrev EntryProp (K : Type) := EngineConfig K → String → Entry K → Prop

/-- The cache of an engine is well formed and its entries have a property. -/
structure Keeps (P : EntryProp K) (e : Engine K) : Prop where
  wellFormed : e.cache.WellFormed
  entries : ∀ id entry, e.cache.get? id = some entry → P e.config id entry

namespace Keeps

variable {P : EntryProp K} {e e' : Engine K}

theorem of_eq (h : Keeps P e) (hcache : e'.cache = e.cache) (hconfig : e'.config = e.config) : Keeps P e' := by
  refine ⟨?_, ?_⟩
  · rw [hcache]
    exact h.wellFormed
  · rw [hcache, hconfig]
    exact h.entries

theorem drop (h : Keeps P e) (id : String) : Keeps P { e with cache := e.cache.drop id } where
  wellFormed := h.wellFormed.drop id
  entries := by
    intro other entry hget
    rw [Cache.get?_drop] at hget
    split at hget
    · cases hget
    · exact h.entries other entry hget

theorem invalidateAll (h : Keeps P e) : Keeps P e.invalidateAll where
  wellFormed := h.wellFormed.clear
  entries := by
    intro other entry hget
    cases hget

theorem put (h : Keeps P e) {id : String} {entry : Entry K} (hentry : P e.config id entry) :
    Keeps P { e with cache := e.cache.put id entry } where
  wellFormed := h.wellFormed.put id entry
  entries := by
    intro other found hget
    by_cases hother : other = id
    · subst hother
      have hsome : some entry = some found := (h.wellFormed.get?_put_self other entry).symm.trans hget
      exact Option.some.inj hsome ▸ hentry
    · exact h.entries other found (h.wellFormed.get?_put_of_ne hother hget)

theorem conclude (h : Keeps P e) {id : String} {previous : Option (Entry K)} {outcome : Except Error (Entry K)}
    (hnew : ∀ entry, outcome = .ok entry → P e.config id entry) : Keeps P (e.conclude id previous outcome).2 := by
  have hspec := conclude_spec e id previous outcome
  generalize e.conclude id previous outcome = result at hspec ⊢
  obtain ⟨answer, after⟩ := result
  cases hspec with
  | computed entry => exact (h.put (hnew entry rfl)).of_eq rfl rfl
  | unknown _ => exact (h.drop id).of_eq rfl rfl
  | stale _ _ => exact h.of_eq rfl rfl
  | failed _ _ => exact h.of_eq rfl rfl
  | crashed _ _ => exact h

end Keeps

theorem conclude_config (e : Engine K) (id : String) (previous : Option (Entry K)) (outcome : Except Error (Entry K)) :
    (e.conclude id previous outcome).2.config = e.config := by
  have hspec := conclude_spec e id previous outcome
  generalize e.conclude id previous outcome = result at hspec ⊢
  obtain ⟨answer, after⟩ := result
  cases hspec <;> rfl

variable [Scalar K]

/-- A computation in allowed surroundings inherits the property from the entry that it starts from. -/
def Inherited (allowed : Sources K → Prop) (P : EntryProp K) : Prop :=
  ∀ s, allowed s → ∀ config stopped id previous entry, (∀ p, previous = some p → P config id p) →
    Entry.compute s config stopped id previous = .ok entry → P config id entry

theorem inherited_true (allowed : Sources K → Prop) : Inherited allowed fun _ _ _ => True :=
  fun _ _ _ _ _ _ _ _ _ => trivial

section Calls

variable {allowed : Sources K → Prop} {P : EntryProp K} {e : Engine K} {s : Sources K}

theorem Keeps.refresh (hP : Inherited allowed P) (hs : allowed s) (h : Keeps P e) (id : String) :
    Keeps P (e.refresh s id).2 := by
  rw [refresh_eq]
  have hconcluded : Keeps P (e.concluded s id).2 :=
    h.conclude fun entry hentry => hP s hs e.config e.stopped id _ entry (h.entries id) hentry
  exact hconcluded.of_eq rfl rfl

theorem Keeps.get (hP : Inherited allowed P) (hs : allowed s) (h : Keeps P e) (id : String) :
    Keeps P (e.get s id).2 := by
  cases hfresh : e.fresh? s id with
  | some value =>
    rw [get_of_hit hfresh]
    exact h.of_eq rfl rfl
  | none =>
    rw [get_of_miss hfresh]
    exact h.refresh hP hs id

end Calls

end Engine

/-! ## Threads -/

namespace Thread

/-- What a thread carries with it has the property that cached entries have. -/
def Carries (P : Engine.EntryProp K) (config : EngineConfig K) (t : Thread K) : Prop :=
  match t.stage with
  | .computing _ previous => ∀ p, previous = some p → P config t.call.id p
  | .computed _ previous outcome =>
    (∀ p, previous = some p → P config t.call.id p) ∧ ∀ entry, outcome = .ok entry → P config t.call.id entry
  | _ => True

variable [Scalar K] {allowed : Sources K → Prop} {P : Engine.EntryProp K} {e : Engine K} {s : Sources K}

/-- One step of a thread keeps the property, in the cache and in what the thread carries. -/
theorem advance_keeps (hP : Engine.Inherited allowed P) (hs : allowed s) (h : e.Keeps P) {t : Thread K}
    (ht : t.Carries P e.config) :
    (t.advance e s).2.Keeps P ∧ (t.advance e s).2.config = e.config ∧ (t.advance e s).1.Carries P e.config := by
  have hstep := t.advance_spec e s
  generalize t.advance e s = result at hstep ⊢
  obtain ⟨next, after⟩ := result
  dsimp only at hstep ⊢
  cases hstep with
  | missed _ => exact ⟨h, rfl, trivial⟩
  | read _ => exact ⟨h, rfl, h.entries _⟩
  | computed => exact ⟨h, rfl, ht, fun entry hentry => hP s hs e.config e.stopped _ _ entry ht hentry⟩
  | concluded => exact ⟨h.conclude ht.2, Engine.conclude_config e _ _ _, trivial⟩
  | stayed _ => exact ⟨h, rfl, ht⟩
  | _ => exact ⟨h.of_eq rfl rfl, rfl, trivial⟩

/-- One step of the thread at place `i` keeps the account of the slots. -/
theorem advance_tally {held : List (Option Ticket)} (h : e.slots.Tally held) {t : Thread K} {i : Nat}
    (hi : held[i]? = some t.ticket?) :
    (t.advance e s).2.slots.Tally (held.set i (t.advance e s).1.ticket?) := by
  have hsame : e.slots.Tally (held.set i t.ticket?) := (set_eq_self hi).symm ▸ h
  have hstep := t.advance_spec e s
  generalize t.advance e s = result at hstep ⊢
  obtain ⟨next, after⟩ := result
  dsimp only at hstep ⊢
  cases hstep with
  | registered => exact h.register hi _
  | entered hslots => exact hsame.acquire hslots
  | concluded =>
    rw [Engine.conclude_slots]
    exact hsame
  | left hslots => exact hsame.release hslots
  | deregistered hslots => exact h.deregister hi hslots
  | _ => exact hsame

end Thread

namespace Machine

/-- The slots of a machine account for the tickets of its threads. -/
def Tallied (m : Machine K) : Prop := m.engine.slots.Tally (m.threads.map Thread.ticket?)

theorem tallied_of_rest {e : Engine K} {s : Sources K} (h : e.slots.list = []) : (Machine.mk e s []).Tallied := by
  refine ⟨?_, ?_, ?_, ?_⟩ <;> simp [h, Slots.ids]

/-- When all threads have finished there are no slots. -/
theorem Tallied.slots_list {m : Machine K} (h : m.Tallied) (hdone : ∀ t ∈ m.threads, t.answer?.isSome) :
    m.engine.slots.list = [] := by
  refine Slots.Tally.list_eq_nil h fun ticket hticket => ?_
  obtain ⟨t, ht, hheld⟩ := List.mem_map.mp hticket
  rw [Thread.ticket?_eq_none_of_answer? (hdone t ht)] at hheld
  cases hheld

variable [Scalar K] {allowed : Sources K → Prop} {P : Engine.EntryProp K}

theorem apply_advance {m : Machine K} {i : Nat} {t : Thread K} (hi : m.threads[i]? = some t) :
    m.apply (.advance i) =
      { m with
        engine := (t.advance m.engine m.sources).2
        threads := m.threads.set i (t.advance m.engine m.sources).1 } := by
  simp only [Machine.apply, hi]

theorem apply_advance_of_none {m : Machine K} {i : Nat} (hi : m.threads[i]? = none) : m.apply (.advance i) = m := by
  simp only [Machine.apply, hi]

/-- A machine in allowed surroundings, of which the cache and the threads hold entries with a property only. -/
structure Keeps (allowed : Sources K → Prop) (P : Engine.EntryProp K) (m : Machine K) : Prop where
  surroundings : allowed m.sources
  engine : m.engine.Keeps P
  threads : ∀ t ∈ m.threads, t.Carries P m.engine.config

omit [Scalar K] in
theorem Keeps.of_rest {e : Engine K} {s : Sources K} (hs : allowed s) (h : e.Keeps P) :
    (Machine.mk e s []).Keeps allowed P := ⟨hs, h, fun t ht => by cases ht⟩

/-- Where a move changes the surroundings, it changes them to allowed ones. -/
def MoveAllowed (allowed : Sources K → Prop) (move : Move K) : Prop := ∀ s, move = .surround s → allowed s

theorem Keeps.apply {m : Machine K} (hP : Engine.Inherited allowed P) (h : m.Keeps allowed P) {move : Move K}
    (hmove : MoveAllowed allowed move) : (m.apply move).Keeps allowed P := by
  cases move with
  | begin call =>
    refine ⟨h.surroundings, h.engine, ?_⟩
    intro t ht
    rcases List.mem_append.mp ht with ht | ht
    · exact h.threads t ht
    · rw [List.mem_singleton.mp ht]
      trivial
  | advance i =>
    unfold Machine.apply
    dsimp only
    split
    · next t ht =>
      obtain ⟨hkeeps, hconfig, hcarries⟩ :=
        Thread.advance_keeps hP h.surroundings h.engine (h.threads t (List.mem_of_getElem? ht))
      refine ⟨h.surroundings, hkeeps, ?_⟩
      show ∀ u ∈ m.threads.set i _, u.Carries P (t.advance m.engine m.sources).2.config
      rw [hconfig]
      exact forall_mem_set h.threads hcarries i
    · exact h
  | invalidate id => exact ⟨h.surroundings, h.engine.drop id, h.threads⟩
  | invalidateAll => exact ⟨h.surroundings, h.engine.invalidateAll, h.threads⟩
  | surround s => exact ⟨hmove s rfl, h.engine, h.threads⟩

theorem Keeps.run {m : Machine K} (hP : Engine.Inherited allowed P) (h : m.Keeps allowed P) {moves : List (Move K)}
    (hmoves : ∀ move ∈ moves, MoveAllowed allowed move) : (m.run moves).Keeps allowed P := by
  induction moves generalizing m with
  | nil => exact h
  | cons move rest ih =>
    rw [List.forall_mem_cons] at hmoves
    exact ih (h.apply hP hmoves.1) hmoves.2

theorem Tallied.apply {m : Machine K} (h : m.Tallied) (move : Move K) : (m.apply move).Tallied := by
  cases move with
  | begin call =>
    show m.engine.slots.Tally ((m.threads ++ [Thread.begin call]).map Thread.ticket?)
    rw [List.map_append]
    exact h.append_none
  | advance i =>
    unfold Machine.apply
    dsimp only
    split
    · next t ht =>
      have hi : (m.threads.map Thread.ticket?)[i]? = some t.ticket? := by
        rw [List.getElem?_map, ht]
        rfl
      show (t.advance m.engine m.sources).2.slots.Tally ((m.threads.set i _).map Thread.ticket?)
      rw [List.map_set]
      exact Thread.advance_tally h hi
    · exact h
  | invalidate id => exact h
  | invalidateAll => exact h
  | surround s => exact h

theorem Tallied.run {m : Machine K} (h : m.Tallied) (moves : List (Move K)) : (m.run moves).Tallied := by
  induction moves generalizing m with
  | nil => exact h
  | cons move rest ih => exact ih (h.apply move)

end Machine

/-! ## Reachable engines -/

namespace Engine

variable [Scalar K]

/-- The engines that calls, drops and threads lead to from a new one, while the surroundings are `allowed`. -/
inductive Reachable (allowed : Sources K → Prop) : Engine K → Prop
  | create {registry : Registry K} {config : EngineConfig K} {e : Engine K} (h : create registry config = .ok e) :
      Reachable allowed e
  | get {e : Engine K} (h : Reachable allowed e) {s : Sources K} (hs : allowed s) (id : String) :
      Reachable allowed (e.get s id).2
  | refresh {e : Engine K} (h : Reachable allowed e) {s : Sources K} (hs : allowed s) (id : String) :
      Reachable allowed (e.refresh s id).2
  | invalidate {e : Engine K} (h : Reachable allowed e) (id : String) : Reachable allowed (e.invalidate id).2
  | invalidateAll {e : Engine K} (h : Reachable allowed e) : Reachable allowed e.invalidateAll
  | close {e : Engine K} (h : Reachable allowed e) : Reachable allowed e.close
  /-- Threads that share the engine, once all of them have finished. -/
  | threads {e : Engine K} (h : Reachable allowed e) {s : Sources K} (hs : allowed s) {moves : List (Move K)}
      (hmoves : ∀ move ∈ moves, Machine.MoveAllowed allowed move)
      (hdone : ∀ t ∈ ((Machine.mk e s []).run moves).threads, t.answer?.isSome) :
      Reachable allowed ((Machine.mk e s []).run moves).engine

namespace Reachable

variable {allowed : Sources K → Prop} {P : EntryProp K} {e : Engine K}

/-- What a computation inherits from the entry that it starts from, all cached entries have. -/
theorem keeps (hP : Inherited allowed P) (h : Reachable allowed e) : e.Keeps P := by
  induction h with
  | create h =>
    unfold Engine.create at h
    split at h
    · cases h
      exact ⟨Cache.wellFormed_empty _, fun id entry hget => by cases hget⟩
    · cases h
  | get _ hs id ih => exact ih.get hP hs id
  | refresh _ hs id ih => exact ih.refresh hP hs id
  | invalidate _ id ih => exact ih.drop id
  | invalidateAll _ ih => exact ih.invalidateAll
  | close _ ih => exact ih.of_eq rfl rfl
  | threads _ hs hmoves _ ih =>
    exact ((Machine.Keeps.of_rest hs ih).run hP hmoves).engine

theorem wellFormed (h : Reachable allowed e) : e.cache.WellFormed :=
  (h.keeps (inherited_true allowed)).wellFormed

theorem slots_list (h : Reachable allowed e) : e.slots.list = [] := by
  induction h with
  | create h =>
    unfold Engine.create at h
    split at h <;> cases h
    rfl
  | @get e _ s _ id ih =>
    cases hfresh : e.fresh? s id with
    | some value =>
      rw [get_of_hit hfresh]
      exact ih
    | none =>
      rw [get_of_miss hfresh, refresh_eq]
      exact slotsAfter_list ih id
  | refresh _ _ id ih =>
    rw [refresh_eq]
    exact slotsAfter_list ih id
  | invalidate _ _ ih => exact ih
  | invalidateAll _ ih => exact ih
  | close _ ih => exact ih
  | threads _ _ _ hdone ih => exact ((Machine.tallied_of_rest ih).run _).slots_list hdone

end Reachable

end Engine

/-- The machines that threads lead to which share a reachable engine, while the surroundings are `allowed`. -/
def Machine.Reachable [Scalar K] (allowed : Sources K → Prop) (m : Machine K) : Prop :=
  ∃ e s moves, Engine.Reachable allowed e ∧ allowed s ∧ (∀ move ∈ moves, MoveAllowed allowed move) ∧
    m = (Machine.mk e s []).run moves

namespace Machine.Reachable

variable [Scalar K] {allowed : Sources K → Prop} {P : Engine.EntryProp K} {m : Machine K}

theorem keeps (hP : Engine.Inherited allowed P) (h : m.Reachable allowed) : m.Keeps allowed P := by
  obtain ⟨e, s, moves, he, hs, hmoves, rfl⟩ := h
  exact (Machine.Keeps.of_rest hs (he.keeps hP)).run hP hmoves

/-- No thread need have come. -/
theorem of_rest {e : Engine K} {s : Sources K} (he : e.Reachable allowed) (hs : allowed s) :
    (Machine.mk e s []).Reachable allowed := by
  have hnone : ∀ move ∈ ([] : List (Move K)), MoveAllowed allowed move := fun _ h => by cases h
  exact ⟨e, s, [], he, hs, hnone, rfl⟩

theorem wellFormed (h : m.Reachable allowed) : m.engine.cache.WellFormed :=
  (h.keeps (Engine.inherited_true allowed)).engine.wellFormed

theorem tallied (h : m.Reachable allowed) : m.Tallied := by
  obtain ⟨e, s, moves, he, -, -, rfl⟩ := h
  exact (tallied_of_rest he.slots_list).run moves

/-- When all threads have finished the engine is a reachable one itself. -/
theorem engine (h : m.Reachable allowed) (hdone : ∀ t ∈ m.threads, t.answer?.isSome) : m.engine.Reachable allowed := by
  obtain ⟨e, s, moves, he, hs, hmoves, rfl⟩ := h
  exact he.threads hs hmoves hdone

end Machine.Reachable

/-! ## A computed entry -/

/-- Surroundings that know every connection and hold no history. -/
def Sources.quiet : Sources Float where
  thresholds _ := .ok ⟨some (.amount 100), none⟩
  history id metric _ := .finished (.ok (Series.empty id metric))
  clock := ⟨63839664000000000, some 0⟩
  monotonic := 0
  registry := Registry.standard

/-- The engine of the standard configuration that has computed nothing. -/
def Engine.cold : Engine Float := ⟨EngineConfig.standard, Cache.empty 10000, Slots.empty, ⟨0, 0, 0, 0⟩, false⟩

theorem Engine.create_cold : create Registry.standard EngineConfig.standard = .ok cold := rfl

/-- This engine after one computation. -/
def Engine.warm : Engine Float := (cold.refresh .quiet "orders").2

theorem Engine.warm_reachable : (Machine.mk warm .quiet []).Reachable fun _ => True :=
  .of_rest (.refresh (.create create_cold) trivial "orders") trivial

end Backpressure
