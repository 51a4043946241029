import Backpressure.Proofs.Learning
import Backpressure.Proofs.Reachable
import Backpressure.Proofs.Recording
import Backpressure.Run

/-!
# What live models learn in a run

* `InOrder` : events that record snapshots in the order of time and never set the clock back;
* `Installation.computations` : the surroundings of the computations of a connection since its entry was last dropped;
* `Tracked` : what holds of a connection after a run, `Tracked.step` : each event keeps it;
* `live_models_learn_each_point_once` : the live models are those of the windows of these computations.
-/

namespace Backpressure
open Number Time Trend

variable {K : Type}

namespace Event

/-- Whether an event records, changes the directory or a clock, calls or drops. -/
def isOrdinary : Event K → Bool
  | .register _ _ _ | .remove _ | .record _ _ | .setClock _ | .setMonotonic _ | .get _ | .refresh _ | .invalidate _
  | .invalidateAll => true
  | _ => false

/-- The times that an event records of a connection. -/
def recorded (id : String) : Event K → List Int
  | .record other points => if id = other then recordedTimes points else []
  | _ => []

/-- The timestamps of what an event records. -/
def timestamps : Event K → List Timestamp
  | .record _ points => points.map Prod.fst
  | _ => []

/-- The time to which an event sets the clock. -/
def clock? : Event K → Option Int
  | .setClock t => some t.utcMicros
  | _ => none

/-- The call that an event is. -/
def call? : Event K → Option Call
  | .get id => some ⟨id, false⟩
  | .refresh id => some ⟨id, true⟩
  | _ => none

end Event

/-- Ordinary events that record snapshots later than those of an installation, in the order of time and not by the
clocks of a zone, and never set its clock back. -/
structure InOrder (i : Installation K) (events : List (Event K)) : Prop where
  ordinary : ∀ event ∈ events, event.isOrdinary = true
  recorded : ∀ id, (times (i.site.history.of id) ++ events.flatMap (Event.recorded id)).Pairwise (· < ·)
  fixed : ∀ event ∈ events, ∀ t ∈ event.timestamps, t.Fixed
  clock : (i.site.clock.utcMicros :: events.filterMap Event.clock?).Pairwise (· ≤ ·)

/-- Surroundings at two times: the history of a connection has gone on, the clock has not been set back. -/
def Site.Before (id : String) (a b : Site K) : Prop :=
  a.history.of id <+: b.history.of id ∧ a.clock.utcMicros ≤ b.clock.utcMicros

theorem Site.Before.refl (id : String) (a : Site K) : a.Before id a := ⟨List.prefix_refl _, Int.le_refl _⟩

theorem Site.Before.trans {id : String} {a b c : Site K} (h : a.Before id b) (h' : b.Before id c) : a.Before id c :=
  ⟨h.1.trans h'.1, Int.le_trans h.2 h'.2⟩

variable [Scalar K]

namespace Installation

/-- Whether an event is a call for a connection that returns analytics which it has computed. -/
def computes (i : Installation K) (id : String) (event : Event K) : Bool :=
  match event.call? with
  | some call => call.id == id && Engine.isComputed (i.engine.answer i.site.sources call).1
  | none => false

/-- The surroundings in which the analytics of a connection have been computed since its entry was last dropped, the
latest at the end; `sites` are those before the events. -/
def computations (i : Installation K) (id : String) (sites : List (Site K)) : List (Event K) → List (Site K)
  | [] => sites
  | event :: rest =>
    let after := (i.step event).2
    let sites := if i.computes id event then sites ++ [i.site] else sites
    after.computations id (if (after.engine.cache.get? id).isSome then sites else []) rest

/-! ## Steps -/

/-- What an ordinary event does, as far as a connection is concerned. -/
inductive Effect (i : Installation K) (id : String) (event : Event K) (after : Installation K) : Prop
  /-- The surroundings have gone on. -/
  | surroundings (hengine : after.engine = i.engine) (hmemory : i.site.InMemory → after.site.InMemory)
      (hregistry : after.site.registry = i.site.registry) (hbefore : i.site.Before id after.site)
      (hcomputes : i.computes id event = false)
  /-- The entry is as it was, or has been dropped. -/
  | kept (hsite : after.site = i.site) (hconfig : after.engine.config = i.engine.config)
      (hstopped : after.engine.stopped = i.engine.stopped) (hwell : after.engine.cache.WellFormed)
      (hcache : after.engine.cache.get? id = none ∨ after.engine.cache.get? id = i.engine.cache.get? id)
      (hcomputes : i.computes id event = false)
  /-- The entry has been computed anew. -/
  | computed (entry : Entry K) (hsite : after.site = i.site) (hconfig : after.engine.config = i.engine.config)
      (hstopped : after.engine.stopped = i.engine.stopped) (hwell : after.engine.cache.WellFormed)
      (hentry : i.engine.attempt i.site.sources id = .ok entry) (hcache : after.engine.cache.get? id = some entry)
      (hcomputes : i.computes id event = true)

variable {i : Installation K} {id : String}

/-- What a call does. -/
theorem effect_of_call (hwell : i.engine.cache.WellFormed) {event : Event K} {call : Call}
    (hcall : event.call? = some call) :
    i.Effect id event ⟨(i.engine.answer i.site.sources call).2, i.site⟩ := by
  obtain ⟨hconfig, hstopped, hcases⟩ := i.engine.answer_cases i.site.sources call
  have hcomputes : i.computes id event =
      (call.id == id && Engine.isComputed (i.engine.answer i.site.sources call).1) := by
    unfold computes
    rw [hcall]
  rcases hcases with ⟨entry, hentry, hanswer, hcache⟩ | ⟨hnot, hcache⟩
  · have hafter : (i.engine.answer i.site.sources call).2.cache.WellFormed := hcache ▸ hwell.put call.id entry
    by_cases hid : call.id = id
    · subst hid
      refine .computed entry rfl hconfig hstopped hafter hentry ?_ ?_
      · show (i.engine.answer i.site.sources call).2.cache.get? call.id = _
        rw [hcache]
        exact hwell.get?_put_self call.id entry
      · rw [hcomputes, hanswer]
        simp [Engine.isComputed]
    · refine .kept rfl hconfig hstopped hafter ?_ (by simp [hcomputes, hid])
      show (i.engine.answer i.site.sources call).2.cache.get? id = none ∨ (i.engine.answer _ call).2.cache.get? id = _
      rw [hcache]
      cases hget : (i.engine.cache.put call.id entry).get? id with
      | none => exact .inl rfl
      | some found => exact .inr (hwell.get?_put_of_ne (Ne.symm hid) hget).symm
  · rcases hcache with hcache | hcache
    · exact .kept rfl hconfig hstopped (hcache ▸ hwell) (.inr (by rw [hcache])) (by simp [hcomputes, hnot])
    · refine .kept rfl hconfig hstopped (hcache ▸ hwell.drop call.id) ?_ (by simp [hcomputes, hnot])
      show (i.engine.answer i.site.sources call).2.cache.get? id = none ∨ (i.engine.answer _ call).2.cache.get? id = _
      rw [hcache, Cache.get?_drop]
      split
      · exact .inl rfl
      · exact .inr rfl

/-- What an ordinary event does that comes in order. -/
theorem effect_of_step (hwell : i.engine.cache.WellFormed) {event : Event K} {rest : List (Event K)}
    (h : InOrder i (event :: rest)) : i.Effect id event (i.step event).2 := by
  have hordinary := h.ordinary event List.mem_cons_self
  have hclock := h.clock
  cases event with
  | register other bytes count =>
    show i.Effect id _ { i with site := (i.site.register other bytes count).2 }
    unfold Site.register
    split
    · exact .surroundings rfl (fun hm => ⟨hm.faults, hm.pinned⟩) rfl (.refl id _) rfl
    · exact .surroundings rfl (fun hm => hm) rfl (.refl id _) rfl
  | remove other => exact .surroundings rfl (fun hm => ⟨hm.faults, hm.pinned⟩) rfl (.refl id _) rfl
  | record other points =>
    have horder := h.recorded other
    simp only [List.flatMap_cons, Event.recorded, if_true] at horder
    rw [← List.append_assoc] at horder
    have hfixed := List.forall_mem_map.mp (h.fixed _ List.mem_cons_self)
    obtain ⟨new, -, hof⟩ := Site.record_of hfixed (List.pairwise_append.mp horder).1
    obtain ⟨history, hhistory⟩ := i.site.record_frame other points
    show i.Effect id _ { i with site := (i.site.record other points).2 }
    have hgrown : i.site.history.of id <+: (i.site.record other points).2.history.of id := by
      rw [hof]
      exact List.prefix_append _ _
    rw [hhistory] at hgrown ⊢
    exact .surroundings rfl (fun hm => ⟨hm.faults, hm.pinned⟩) rfl ⟨hgrown, Int.le_refl _⟩ rfl
  | setClock t =>
    have hle := (List.pairwise_cons.mp hclock).1 t.utcMicros (by simp [Event.clock?])
    exact .surroundings rfl (fun hm => ⟨hm.faults, hm.pinned⟩) rfl ⟨List.prefix_refl _, hle⟩ rfl
  | setMonotonic x => exact .surroundings rfl (fun hm => ⟨hm.faults, hm.pinned⟩) rfl (.refl id _) rfl
  | get other => exact effect_of_call hwell (show _ = some ⟨other, false⟩ from rfl)
  | refresh other => exact effect_of_call hwell (show _ = some ⟨other, true⟩ from rfl)
  | invalidate other =>
    refine .kept rfl rfl rfl (hwell.drop other) ?_ rfl
    show (i.engine.cache.drop other).get? id = none ∨ (i.engine.cache.drop other).get? id = _
    rw [Cache.get?_drop]
    split
    · exact .inl rfl
    · exact .inr rfl
  | invalidateAll => exact .kept rfl rfl rfl hwell.clear (.inl rfl) rfl
  | _ => cases hordinary

end Installation

/-- After an event that comes in order the others do. -/
theorem InOrder.step {i : Installation K} {event : Event K} {rest : List (Event K)} (h : InOrder i (event :: rest)) :
    InOrder (i.step event).2 rest := by
  have hordinary := h.ordinary event List.mem_cons_self
  have hrest := fun e he => h.ordinary e (List.mem_cons_of_mem event he)
  have hrecorded := h.recorded
  have hfixed := fun e he => h.fixed e (List.mem_cons_of_mem event he)
  have hclock := h.clock
  simp only [List.flatMap_cons] at hrecorded
  cases event with
  | register other bytes count =>
    show InOrder { i with site := (i.site.register other bytes count).2 } rest
    unfold Site.register
    split
    · exact ⟨hrest, hrecorded, hfixed, hclock⟩
    · exact ⟨hrest, hrecorded, hfixed, hclock⟩
  | record other points =>
    obtain ⟨history, hhistory⟩ := i.site.record_frame other points
    have horder := hrecorded other
    simp only [Event.recorded, if_true] at horder
    rw [← List.append_assoc] at horder
    have hnow := List.forall_mem_map.mp (h.fixed _ List.mem_cons_self)
    obtain ⟨new, hsub, hof⟩ := Site.record_of hnow (List.pairwise_append.mp horder).1
    show InOrder { i with site := (i.site.record other points).2 } rest
    rw [hhistory] at hof ⊢
    refine ⟨hrest, fun id => ?_, hfixed, hclock⟩
    show (times (history.of id) ++ _).Pairwise _
    rw [show history.of id = _ from hof id, times, List.map_append, ← times, List.append_assoc]
    refine (hrecorded id).sublist ((List.Sublist.refl _).append (List.Sublist.append ?_ (List.Sublist.refl _)))
    show (times (if id = other then new else [])).Sublist (if id = other then recordedTimes points else [])
    split
    · exact hsub
    · exact List.Sublist.refl _
  | setClock t => exact ⟨hrest, hrecorded, hfixed, (List.pairwise_cons.mp hclock).2⟩
  | remove _ => exact ⟨hrest, hrecorded, hfixed, hclock⟩
  | setMonotonic _ => exact ⟨hrest, hrecorded, hfixed, hclock⟩
  | get _ => exact ⟨hrest, hrecorded, hfixed, hclock⟩
  | refresh _ => exact ⟨hrest, hrecorded, hfixed, hclock⟩
  | invalidate _ => exact ⟨hrest, hrecorded, hfixed, hclock⟩
  | invalidateAll => exact ⟨hrest, hrecorded, hfixed, hclock⟩
  | _ => cases hordinary

theorem InOrder.run {i : Installation K} {events : List (Event K)} (h : InOrder i events) :
    InOrder (i.run events).2 [] := by
  induction events generalizing i with
  | nil => exact h
  | cons event rest ih => exact ih h.step

omit [Scalar K] in
theorem InOrder.chronological {i : Installation K} {events : List (Event K)} (h : InOrder i events) (id : String) :
    Chronological (i.site.history.of id) := chronological_iff.mpr (List.pairwise_append.mp (h.recorded id)).1

/-! ## What is kept -/

/-- The live model of a metric of a connection. -/
def Installation.live? (i : Installation K) (id : String) (m : Metric) : Option (LiveModel K) :=
  (i.engine.cache.get? id).bind fun entry => entry.models.get m

/-- What holds of a connection in a run, whose analytics have been computed in the surroundings `sites` since its entry
was last dropped. -/
structure Tracked (registry : Registry K) (config : EngineConfig K) (id : String) (i : Installation K)
    (sites : List (Site K)) : Prop where
  memory : i.site.InMemory
  registry_eq : i.site.registry = registry
  config_eq : i.engine.config = config
  running : i.engine.stopped = false
  wellFormed : i.engine.cache.WellFormed
  ordered : (sites ++ [i.site]).Pairwise (Site.Before id)
  absent : i.engine.cache.get? id = none → sites = []
  /-- The entry is the one that was computed last. -/
  entry : ∀ entry, i.engine.cache.get? id = some entry → ∃ last previous, sites.getLast? = some last ∧
    last.InMemory ∧ last.registry = registry ∧ Entry.compute last.sources config false id previous = .ok entry
  fetches : ∀ site ∈ sites, site.Fetches config id (site.window config id)
  learned : ∀ m, LearnedFrom registry config (sites.map fun site => site.window config id m) (i.live? id m)

variable {registry : Registry K} {config : EngineConfig K} {id : String} {i : Installation K} {sites : List (Site K)}

theorem Site.increasing_window {s : Site K} (h : Chronological (s.history.of id)) (m : Metric) :
    Increasing (s.window config id m) :=
  List.pairwise_map.mpr (h.sublist (History.recent_sublist _ _ _))

/-- A point of the present window that is not newer than all that the live model has learned was in a window before. -/
theorem Tracked.known (h : Tracked registry config id i sites) (hchron : Chronological (i.site.history.of id))
    (m : Metric) {s : LiveModel K} (hs : i.live? id m = some s) {p : Instant × K}
    (hp : p ∈ i.site.window config id m) (hle : p.1.micros ≤ s.last.micros) :
    ∃ w ∈ sinceFirst config (sites.map fun site => site.window config id m), p ∈ w := by
  have hlearned : Learned registry config (sinceFirst config (sites.map fun site => site.window config id m)) s := by
    have := h.learned m
    rw [hs] at this
    exact this
  obtain ⟨fresh, points, -, -, hmem, horigin, hlearn⟩ := hlearned
  have hne : sinceFirst config (sites.map fun site => site.window config id m) ≠ [] := by
    intro hnil
    rw [hnil] at horigin
    cases horigin
  obtain ⟨front, last, rfl⟩ : ∃ front last, sites = front ++ [last] := by
    cases hlast : sites.getLast? with
    | none => exact absurd (by rw [List.getLast?_eq_none_iff.mp hlast]; rfl) hne
    | some last => exact ⟨_, last, (List.getLast?_eq_some_iff.mp hlast).choose_spec⟩
  have hordered := h.ordered
  rw [List.map_append, List.map_singleton] at hne ⊢
  refine ⟨last.window config id m, mem_sinceFirst_concat hne, ?_⟩
  obtain ⟨⟨new, hnew⟩, hclock⟩ : last.Before id i.site :=
    (List.pairwise_append.mp hordered).2.2 last (by simp) i.site (by simp)
  -- The newest point learned was in some window, so it is one of the snapshots that the last computation could see.
  obtain ⟨newest, hnewest, hmicros⟩ : ∃ snapshot ∈ last.history.of id, snapshot.timestamp.utcMicros = s.last.micros := by
    have hlast := (LiveModel.learnAt_eq_some.mp hlearn).2.2.2
    obtain ⟨q, hq, hqs⟩ := List.mem_map.mp (List.mem_of_getLast? hlast)
    obtain ⟨w, hw, hqw⟩ := (hmem q).mp hq
    obtain ⟨site, hsite, rfl⟩ := List.mem_map.mp ((List.dropWhile_suffix _).subset hw)
    obtain ⟨snapshot, hsnapshot, rfl⟩ := List.mem_map.mp hqw
    have hmember := (History.recent_sublist _ _ _).subset hsnapshot
    refine ⟨snapshot, ?_, by rw [← hqs]; rfl⟩
    rcases List.mem_append.mp hsite with hfront | hlast'
    · have hpair := (List.pairwise_append.mp hordered).1
      exact ((List.pairwise_append.mp hpair).2.2 site hfront last (by simp)).1.subset hmember
    · rwa [← List.mem_singleton.mp hlast']
  obtain ⟨snapshot, hsnapshot, rfl⟩ := List.mem_map.mp hp
  rw [← hnew] at hchron
  refine List.mem_map_of_mem ?_
  have hrecent := hsnapshot
  unfold Site.recent at hrecent ⊢
  rw [← hnew] at hrecent
  have hold : snapshot ∈ last.history.of id := by
    rcases List.mem_append.mp ((History.recent_sublist _ _ _).subset hrecent) with hold | hlater
    · exact hold
    · have hlt := (List.pairwise_append.mp hchron).2.2 newest hnewest snapshot hlater
      have hpoint : snapshot.timestamp.utcMicros ≤ s.last.micros := hle
      omega
  exact History.mem_recent_of_append hchron (by omega) hrecent hold

/-- Of a connection without an entry nothing is known. -/
theorem Tracked.of_absent (hmemory : i.site.InMemory) (hregistry : i.site.registry = registry)
    (hconfig : i.engine.config = config) (hrunning : i.engine.stopped = false) (hwell : i.engine.cache.WellFormed)
    (hnone : i.engine.cache.get? id = none) : Tracked registry config id i [] where
  memory := hmemory
  registry_eq := hregistry
  config_eq := hconfig
  running := hrunning
  wellFormed := hwell
  ordered := List.pairwise_singleton _ _
  absent _ := rfl
  entry entry hentry := by rw [hnone] at hentry; cases hentry
  fetches site hsite := absurd hsite List.not_mem_nil
  learned m := by
    unfold Installation.live?
    rw [hnone]
    rfl

/-- A new entry adds the present surroundings to those in which the connection was computed. -/
theorem Tracked.of_computed (haccum : Accumulating registry config) (h : Tracked registry config id i sites)
    (hchron : Chronological (i.site.history.of id)) {engine : Engine K} (hconfig : engine.config = i.engine.config)
    (hstopped : engine.stopped = i.engine.stopped) (hwell : engine.cache.WellFormed) {entry : Entry K}
    (hentry : i.engine.attempt i.site.sources id = .ok entry) (hcache : engine.cache.get? id = some entry) :
    Tracked registry config id ⟨engine, i.site⟩ (sites ++ [i.site]) := by
  unfold Engine.attempt at hentry
  rw [h.config_eq, h.running] at hentry
  obtain ⟨c⟩ := Entry.exists_computation hentry
  refine ⟨h.memory, h.registry_eq, hconfig.trans h.config_eq, hstopped.trans h.running, hwell, ?_, fun hnone => ?_,
    fun found hfound => ?_, fun site hsite => ?_, fun m => ?_⟩
  · refine List.pairwise_append.mpr ⟨h.ordered, List.pairwise_singleton _ _, fun a ha b hb => ?_⟩
    rw [List.mem_singleton.mp hb]
    rcases List.mem_append.mp ha with ha | ha
    · exact (List.pairwise_append.mp h.ordered).2.2 a ha i.site (by simp)
    · rw [List.mem_singleton.mp ha]
      exact .refl id i.site
  · rw [hcache] at hnone
    cases hnone
  · rw [hcache] at hfound
    cases hfound
    exact ⟨i.site, _, List.getLast?_concat, h.memory, h.registry_eq, hentry⟩
  · rcases List.mem_append.mp hsite with hsite | hsite
    · exact h.fetches site hsite
    · rw [List.mem_singleton.mp hsite]
      exact Site.fetches_window h.memory c
  · obtain ⟨htimes, hvalues, -⟩ := (Site.answers_of_computation c).points h.memory m
    have htrain := c.train_eq m
    rw [show i.site.sources.registry = registry from h.registry_eq] at htrain
    unfold Installation.live?
    rw [hcache, List.map_append]
    exact (h.learned m).train haccum (Site.increasing_window hchron m) (fun s hs p hp hle => h.known hchron m hs hp hle)
      htimes hvalues htrain

/-- Each event that comes in order keeps what holds of a connection. -/
theorem Tracked.step (haccum : Accumulating registry config) (h : Tracked registry config id i sites)
    {event : Event K} {rest : List (Event K)} (horder : InOrder i (event :: rest)) :
    let after := (i.step event).2
    let sites := if i.computes id event then sites ++ [i.site] else sites
    Tracked registry config id after (if (after.engine.cache.get? id).isSome then sites else []) := by
  have heffect : i.Effect id event (i.step event).2 := Installation.effect_of_step h.wellFormed horder
  have hchron := horder.chronological id
  have hsites : (if (i.engine.cache.get? id).isSome then sites else []) = sites := by
    split
    · rfl
    · next hnone => exact (h.absent (Option.not_isSome_iff_eq_none.mp hnone)).symm
  dsimp only
  generalize (i.step event).2 = after at heffect ⊢
  obtain ⟨engine, site⟩ := after
  cases heffect with
  | surroundings hengine hmemory hregistry hbefore hcomputes =>
    cases hengine
    rw [hcomputes]
    simp only [Bool.false_eq_true, if_false, hsites]
    refine ⟨hmemory h.memory, hregistry.trans h.registry_eq, h.config_eq, h.running, h.wellFormed, ?_, h.absent,
      h.entry, h.fetches, h.learned⟩
    obtain ⟨hold, -, hpresent⟩ := List.pairwise_append.mp h.ordered
    refine List.pairwise_append.mpr ⟨hold, List.pairwise_singleton _ _, fun a ha b hb => ?_⟩
    rw [List.mem_singleton.mp hb]
    exact (hpresent a ha i.site (by simp)).trans hbefore
  | kept hsite hconfig hstopped hwell hcache hcomputes =>
    cases hsite
    rw [hcomputes]
    simp only [Bool.false_eq_true, if_false]
    rcases hcache with hnone | hsame
    · rw [hnone]
      exact .of_absent h.memory h.registry_eq (hconfig.trans h.config_eq) (hstopped.trans h.running) hwell hnone
    · rw [hsame, hsites]
      refine ⟨h.memory, h.registry_eq, hconfig.trans h.config_eq, hstopped.trans h.running, hwell, h.ordered, ?_, ?_,
        h.fetches, fun m => ?_⟩
      · rw [hsame]
        exact h.absent
      · rw [hsame]
        exact h.entry
      · unfold Installation.live?
        rw [hsame]
        exact h.learned m
  | computed entry hsite hconfig hstopped hwell hentry hcache hcomputes =>
    cases hsite
    rw [hcomputes, hcache]
    exact h.of_computed haccum hchron hconfig hstopped hwell hentry hcache

theorem Tracked.run (haccum : Accumulating registry config) {events : List (Event K)} (horder : InOrder i events)
    (h : Tracked registry config id i sites) :
    Tracked registry config id (i.run events).2 (i.computations id sites events) := by
  induction events generalizing i sites with
  | nil => exact h
  | cons event rest ih => exact ih horder.step (h.step haccum horder)

/-! ## Runs from the start -/

/-- Where every window showed all that had been recorded, the entry is the one that is computed from nothing. -/
theorem Tracked.compute_eq (h : Tracked registry config id i sites) (hchron : Chronological (i.site.history.of id))
    {entry : Entry K} (hentry : i.engine.cache.get? id = some entry)
    (hall : ∀ site ∈ sites, site.recent config id = site.history.of id) :
    ∃ last, sites.getLast? = some last ∧ Entry.compute last.sources config false id none = .ok entry := by
  obtain ⟨last, previous, hlast, hmemory, hregistry, hcompute⟩ := h.entry entry hentry
  obtain ⟨front, rfl⟩ := List.getLast?_eq_some_iff.mp hlast
  obtain ⟨c⟩ := Entry.exists_computation hcompute
  have hbefore := (List.pairwise_append.mp (List.pairwise_append.mp h.ordered).1).2.2
  have hpresent := (List.pairwise_append.mp h.ordered).2.2 last (by simp) i.site (by simp)
  have hchronLast : Chronological (last.history.of id) := hchron.sublist hpresent.1.sublist
  refine ⟨last, hlast, c.compute_eq fun m => ?_⟩
  obtain ⟨htimes, hvalues, -⟩ := (Site.answers_of_computation c).points hmemory m
  have hlearned := h.learned m
  unfold Installation.live? at hlearned
  rw [hentry, List.map_append] at hlearned
  have hfresh := LearnedFrom.trainFresh hlearned (Site.increasing_window hchronLast m) fun w hw => by
    obtain ⟨site, hsite, rfl⟩ := List.mem_map.mp hw
    show (site.recent config id).map _ <+: (last.recent config id).map _
    rw [hall site (by simp [hsite]), hall last (by simp)]
    exact (hbefore site hsite last (by simp)).1.map _
  unfold LiveModel.train
  rw [htimes, hvalues, show last.sources.registry = registry from hregistry]
  exact hfresh

/-- After events in order, on a new engine with models of a line kind that accumulate: of each connection and metric the
live model is the one that learns at once what the computations since the entry was last dropped have fetched, from
the first window on with points enough; and where every window showed all that had been recorded, the analytics are
those that a new engine computes. -/
theorem live_models_learn_each_point_once {e : Engine K} (hcreate : Engine.create registry config = .ok e)
    (hkind : LineKind registry config) (hclear : config.model.clearOnLearn = false) (clock : Timestamp) (monotonic : K)
    {events : List (Event K)} (horder : InOrder ⟨e, Site.empty clock monotonic registry⟩ events) (id : String) :
    let start : Installation K := ⟨e, Site.empty clock monotonic registry⟩
    let after := (start.run events).2
    let sites := start.computations id [] events
    (∀ site ∈ sites, site.Fetches config id (site.window config id)) ∧
    (∀ m, LearnedFrom registry config (sites.map fun site => site.window config id m) (after.live? id m)) ∧
    ∀ entry, after.engine.cache.get? id = some entry →
      (∀ site ∈ sites, site.recent config id = site.history.of id) →
      ∃ last, sites.getLast? = some last ∧ (e.refresh last.sources id).1 = .ok ⟨.computed, entry.analytics⟩ := by
  intro start after sites
  unfold Engine.create at hcreate
  split at hcreate
  · cases hcreate
    have hstart : Tracked registry config id start [] :=
      .of_absent ⟨rfl, rfl⟩ rfl rfl rfl (Cache.wellFormed_empty _) rfl
    have htracked : Tracked registry config id after sites := hstart.run (hkind.accumulating hclear) horder
    refine ⟨htracked.fetches, htracked.learned, fun entry hentry hall => ?_⟩
    obtain ⟨last, hlast, hcompute⟩ := htracked.compute_eq (horder.run.chronological id) hentry hall
    refine ⟨last, hlast, ?_⟩
    rw [Engine.refresh_eq]
    show (Engine.conclude _ id none (Entry.compute last.sources config false id none)).1 = _
    rw [hcompute]
    rfl
  · cases hcreate

/-- Two computations of a connection, and one more point recorded between them. -/
def Event.ordersTwice : List (Event Float) :=
  [.register "orders" .missing none,
    .record "orders" [(⟨63839663000000000, some 0⟩, .whole 10, .whole 1),
      (⟨63839663060000000, some 0⟩, .whole 20, .whole 1)],
    .refresh "orders", .record "orders" [(⟨63839663120000000, some 0⟩, .whole 40, .whole 2)], .refresh "orders"]

/-- The live model of the two windows, which overlap, has learned three points. -/
theorem live_model_of_orders_learns_three_points :
    let start : Installation Float := ⟨.cold, Site.empty ⟨63839664000000000, some 0⟩ 0 Registry.standard⟩
    let after := (start.run Event.ordersTwice).2
    LineKind (Registry.standard : Registry Float) EngineConfig.standard ∧ InOrder start Event.ordersTwice ∧
      (∀ m, LearnedFrom Registry.standard EngineConfig.standard ((start.computations "orders" [] Event.ordersTwice).map
        fun site => site.window EngineConfig.standard "orders" m) (after.live? "orders" m)) ∧
      (after.live? "orders" .queuedBytes).map (·.model.size) = some 3 := by
  intro start after
  have hkind : LineKind (Registry.standard : Registry Float) EngineConfig.standard := .inl rfl
  have horder : InOrder start Event.ordersTwice := by
    refine ⟨by decide, fun id => ?_, by decide, by decide⟩
    by_cases h : id = "orders"
    · subst h
      decide
    · have hempty : times (start.site.history.of id) = [] := rfl
      simp [Event.ordersTwice, Event.recorded, h, hempty]
  have hlearn := live_models_learn_each_point_once Engine.create_cold hkind rfl ⟨63839664000000000, some 0⟩ 0 horder "orders"
  exact ⟨hkind, horder, hlearn.2.1, by decide +kernel⟩

end Backpressure
